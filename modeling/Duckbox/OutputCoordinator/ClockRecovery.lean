import Duckbox.ClassDefinitions.LeastSquares
import Duckbox.OutputCoordinator.MasterClock

/-!
# Clock recovery

The clock of a broadcast source, from data points that pair it with the local clock. While
points are accumulated the last line read out (`establishedGradient` through the
established bases) gives the estimates, and one that is far along it moves the bases to
where it is.

`ClockRecoveryEstimate` narrows the time since the local base to an `int`, multiplies the
gradient with it and assigns the product, which shifts numerator and denominator down where
they do not fit in 32 bits. `EstimateFits` says when neither takes more than a fraction of
a microsecond, and `PointFits` when a line that is read out has a denominator.

> `estimates_follow`: in a run of calls that meet the two every estimate is on the line,
> a rebase leaves later ones within a microsecond, none is before the one before it, and
> nothing is divided by 0.
-/

namespace Duckbox.OutputCoordinator

open ClassDefinitions Lib

/-- `PlayerTimeFormat_t`. -/
inductive TimeFormat where
  | us
  | pts
  | other
deriving DecidableEq, Repr

/-- `OutputCoordinatorStatus_t`, as far as these functions return it. -/
inductive RecoveryStatus where
  | noError
  | error
  | notSupported
deriving DecidableEq, Repr

/-- The members of `OutputCoordinator_Base_c` whose names begin with `ClockRecovery`, and
the system clock's adjustment. -/
structure ClockRecovery where
  initialized : Bool
  sourceTimeFormat : TimeFormat
  lastPts : BitVec 64
  ptsBaseLine : BitVec 64
  baseSourceClock : BitVec 64
  baseLocalClock : BitVec 64
  accumulatedPoints : BitVec 32
  integrationTime : BitVec 64
  leastSquareFit : LeastSquares
  establishedGradient : Rational
  establishedBaseSource : BitVec 64
  establishedBaseLocal : BitVec 64
  systemClockAdjustmentEstablished : Bool
  systemClockAdjustment : Rational
deriving DecidableEq, Repr

/-- What `ClockRecoveryEstimate` returns and writes. -/
structure Estimate where
  status : RecoveryStatus
  sourceTime : BitVec 64
  localTime : BitVec 64
deriving DecidableEq, Repr

namespace ClockRecovery

def minimumPoints : BitVec 32 := 4

def minimumIntegrationTime : BitVec 64 := 2000000

def maximumIntegrationTime : BitVec 64 := 512000000

def wrapMask : BitVec 64 := 0x0000000180000000

def wrapOffset : BitVec 64 := 0x0000000200000000

/-- `ClockRecoveryInitialize`. -/
def clockRecoveryInitialize (s : ClockRecovery) (sourceTimeFormat : TimeFormat)
    (policy : MasterClock) : ClockRecovery :=
  let s := { s with
    sourceTimeFormat := sourceTimeFormat
    lastPts := invalidTime
    ptsBaseLine := 0
    baseSourceClock := invalidTime
    baseLocalClock := invalidTime
    establishedGradient := .ofInt 0
    establishedBaseSource := invalidTime
    establishedBaseLocal := invalidTime
    initialized := true
    integrationTime := minimumIntegrationTime }
  if policy ≠ .systemClockMaster then s
  else { s with systemClockAdjustmentEstablished := true, systemClockAdjustment := .ofInt 1 }

/-! ## Data points -/

/-- "Convert the source time to something we can use". -/
def normalize (s : ClockRecovery) (sourceTime : BitVec 64) : Option (ClockRecovery × BitVec 64) :=
  match s.sourceTimeFormat with
  | .us => some (s, sourceTime)
  | .pts =>
    let lastPts := if s.lastPts = invalidTime then sourceTime else s.lastPts
    let ptsBaseLine :=
      if lastPts &&& wrapMask = wrapMask ∧ sourceTime &&& wrapMask = 0 then
        s.ptsBaseLine + wrapOffset
      else if lastPts &&& wrapMask = 0 ∧ sourceTime &&& wrapMask = wrapMask then
        s.ptsBaseLine - wrapOffset
      else s.ptsBaseLine
    some ({ s with lastPts := sourceTime, ptsBaseLine := ptsBaseLine },
      ((ptsBaseLine + sourceTime) * 300 + 13) / 27)
  | .other => none

/-- "Initialize the accumulated data if this is our first point". -/
def begin (s : ClockRecovery) (sourceTime localTime : BitVec 64) : ClockRecovery :=
  if s.baseSourceClock = invalidTime then
    let s := { s with
      baseSourceClock := sourceTime
      baseLocalClock := localTime
      accumulatedPoints := 0
      leastSquareFit := .reset }
    if s.establishedBaseSource = invalidTime then
      { s with
        establishedGradient := .ofInt 1
        establishedBaseSource := s.baseSourceClock
        establishedBaseLocal := s.baseLocalClock }
    else s
  else s

/-- "Accumulate the data point (converting the times to deltas first)". -/
def accumulate (s : ClockRecovery) (sourceTime localTime : BitVec 64) : ClockRecovery :=
  { s with
    leastSquareFit := s.leastSquareFit.add
      (sourceTime - (s.baseSourceClock + s.leastSquareFit.cumulativeY))
      (localTime - (s.baseLocalClock + s.leastSquareFit.cumulativeX))
    accumulatedPoints := s.accumulatedPoints + 1 }

/-- "Is it time for a readout". -/
def due (s : ClockRecovery) : Bool :=
  s.accumulatedPoints ≥ minimumPoints && s.leastSquareFit.cumulativeX ≥ s.integrationTime

def readOut (s : ClockRecovery) (policy : MasterClock) : ClockRecovery :=
  let s := { s with
    establishedGradient := s.leastSquareFit.gradient.assign
    establishedBaseSource :=
      s.baseSourceClock + s.leastSquareFit.intercept.roundedLongLongIntegerPart
    establishedBaseLocal := s.baseLocalClock
    lastPts := invalidTime
    ptsBaseLine := 0
    baseSourceClock := invalidTime
    baseLocalClock := invalidTime
    integrationTime :=
      if s.integrationTime < maximumIntegrationTime then s.integrationTime * 2
      else s.integrationTime }
  if policy = .systemClockMaster then
    { s with
      systemClockAdjustmentEstablished := true
      systemClockAdjustment := s.establishedGradient.assign }
  else s

/-- `ClockRecoveryDataPoint`. -/
def clockRecoveryDataPoint (s : ClockRecovery) (policy : MasterClock)
    (sourceTime localTime : BitVec 64) : ClockRecovery × RecoveryStatus :=
  if !s.initialized then (s, .error)
  else
    match s.normalize sourceTime with
    | none => (s, .notSupported)
    | some (s, sourceTime) =>
      let s := (s.begin sourceTime localTime).accumulate sourceTime localTime
      (if s.due then s.readOut policy else s, .noError)

/-! ## Estimates -/

def elapsedSourceTime (s : ClockRecovery) (now : BitVec 64) : Rational :=
  (s.establishedGradient.mulInt ((now - s.establishedBaseLocal).setWidth 32)).assign

def estimatedSourceTime (s : ClockRecovery) (now : BitVec 64) : BitVec 64 :=
  s.establishedBaseSource + (s.elapsedSourceTime now).roundedLongLongIntegerPart

/-- "Rebase before we use up all the bits". -/
def rebase (s : ClockRecovery) (now : BitVec 64) : ClockRecovery :=
  if (s.elapsedSourceTime now).gtInt (2 <<< 29) then
    { s with establishedBaseLocal := now, establishedBaseSource := s.estimatedSourceTime now }
  else s

/-- `ClockRecoveryEstimate`, at a time `Now`. -/
def clockRecoveryEstimate (s : ClockRecovery) (now : BitVec 64) : ClockRecovery × Estimate :=
  if !s.initialized then (s, ⟨.error, invalidTime, invalidTime⟩)
  else if s.establishedBaseSource = invalidTime then (s, ⟨.error, invalidTime, invalidTime⟩)
  else
    (s.rebase now,
      match s.sourceTimeFormat with
      | .us => ⟨.noError, s.estimatedSourceTime now, now⟩
      | .pts => ⟨.noError, ((s.estimatedSourceTime now * 27 + 150) / 300) &&& 0x00000001ffffffff, now⟩
      | .other => ⟨.notSupported, invalidTime, invalidTime⟩)

/-! ## Runs -/

inductive Call where
  | dataPoint (policy : MasterClock) (sourceTime localTime : BitVec 64)
  | estimate (now : BitVec 64)
deriving DecidableEq, Repr

def step (s : ClockRecovery) : Call → ClockRecovery
  | .dataPoint policy sourceTime localTime =>
    (s.clockRecoveryDataPoint policy sourceTime localTime).1
  | .estimate now => (s.clockRecoveryEstimate now).1

/-- Source and local times that never decrease, below `2 ^ 60`. -/
def Ordered : BitVec 64 → BitVec 64 → List Call → Prop
  | _, _, [] => True
  | lastSource, lastLocal, .dataPoint _ sourceTime localTime :: calls =>
    lastSource ≤ sourceTime ∧ lastLocal ≤ localTime ∧ sourceTime.toNat < 2 ^ 60 ∧
      localTime.toNat < 2 ^ 60 ∧ Ordered sourceTime localTime calls
  | lastSource, lastLocal, .estimate now :: calls =>
    lastLocal ≤ now ∧ now.toNat < 2 ^ 60 ∧ Ordered lastSource now calls

instance Ordered.decidable : ∀ (lastSource lastLocal : BitVec 64) (calls : List Call),
    Decidable (Ordered lastSource lastLocal calls)
  | _, _, [] => inferInstanceAs (Decidable True)
  | _, _, .dataPoint _ sourceTime localTime :: calls =>
    have := Ordered.decidable sourceTime localTime calls
    inferInstanceAs (Decidable (_ ∧ _ ∧ _ ∧ _ ∧ _))
  | lastSource, _, .estimate now :: calls =>
    have := Ordered.decidable lastSource now calls
    inferInstanceAs (Decidable (_ ∧ _ ∧ _))

/-- What a read out divides by. -/
def readOutDivisors (s : ClockRecovery) (policy : MasterClock) : List (BitVec 64) :=
  s.leastSquareFit.readOutDivisors ++ s.leastSquareFit.gradient.restrictDivisors ++
    [s.leastSquareFit.intercept.denominator] ++
    if policy = .systemClockMaster then s.leastSquareFit.gradient.assign.restrictDivisors else []

/-- What a call in microsecond format divides by, where that is not a constant. -/
def divisors (s : ClockRecovery) : Call → List (BitVec 64)
  | .dataPoint policy sourceTime localTime =>
    let s := (s.begin sourceTime localTime).accumulate sourceTime localTime
    if s.due then s.readOutDivisors policy else []
  | .estimate now =>
    if s.establishedBaseSource = invalidTime then []
    else
      (s.establishedGradient.mulInt
        ((now - s.establishedBaseLocal).setWidth 32)).restrictDivisors ++
        [(s.elapsedSourceTime now).denominator]

end ClockRecovery

end Duckbox.OutputCoordinator

/-!
## Estimates follow the line

The product of the gradient with the time since the local base is exact in 64 bits
where that time is an `int`, and an assignment and a rounding away from the elapsed
source time. Three of each are less than two microseconds apart, which is what a
rebase needs, and two assignments less than the gradient, which is what keeps
estimates in order.
-/

namespace Duckbox.OutputCoordinator

open ClassDefinitions Lib

namespace ClockRecovery

/-- How far the source's clock is along the established line. -/
def line (s : ClockRecovery) (now : BitVec 64) : ℚ :=
  s.establishedGradient.value * ((now.toNat : ℚ) - s.establishedBaseLocal.toNat)

/-- The product with an elapsed time comes through its assignment: nothing of it sticks out
of 32 bits, or what is lost is less than a sixth of the gradient and of a microsecond. -/
def KeepsPrecision (gradient : Rational) (elapsed : Nat) : Prop :=
  let parts := gradient.productParts elapsed
  Rational.excess parts.1 parts.2 = 0 ∨
    3 * Rational.lost parts.1 parts.2 <
      Rational.leftOver parts.1 parts.2 * min 1 |gradient.value|

/-- When an estimate is as good as the line: an `int` holds the time since the local base,
its product keeps its precision, and the line is not where an estimate would read as
`INVALID_TIME`. -/
structure EstimateFits (s : ClockRecovery) (now : BitVec 64) : Prop where
  elapsed : (now - s.establishedBaseLocal).toNat < 2 ^ 31
  keeps : KeepsPrecision s.establishedGradient (now - s.establishedBaseLocal).toNat
  valid : 1 < |((invalidTime - s.establishedBaseSource).toInt : ℚ) - s.line now|

instance (gradient : Rational) (elapsed : Nat) : Decidable (KeepsPrecision gradient elapsed) :=
  inferInstanceAs (Decidable (_ ∨ _))

instance (s : ClockRecovery) (now : BitVec 64) : Decidable (s.EstimateFits now) :=
  decidable_of_iff (_ ∧ _ ∧ _) ⟨fun ⟨elapsed, keeps, valid⟩ => ⟨elapsed, keeps, valid⟩,
    fun ⟨elapsed, keeps, valid⟩ => ⟨elapsed, keeps, valid⟩⟩

/-- A line is established that a local time is on. -/
structure Live (s : ClockRecovery) (now : BitVec 64) : Prop where
  initialized : s.initialized = true
  format : s.sourceTimeFormat = .us
  established : s.establishedBaseSource ≠ invalidTime
  gradient : s.establishedGradient.Restricted
  base : s.establishedBaseLocal ≤ now

section Elapsed

variable {gradient : Rational} {elapsed : Nat} {i : BitVec 32}

theorem assign_keeps (hg : gradient.Restricted) (hi : i.toInt = elapsed)
    (hkeeps : KeepsPrecision gradient elapsed) :
    (gradient.mulInt i).assign.Restricted ∧
      (gradient.mulInt i).assign.negative = gradient.negative ∧
      6 * |(gradient.mulInt i).assign.value - gradient.value * elapsed| ≤ |gradient.value| ∧
      6 * |(gradient.mulInt i).assign.value - gradient.value * elapsed| < 1 := by
  obtain ⟨hn, hd, hsign⟩ := Rational.mulInt_parts hg hi
  obtain ⟨hdefined, hvalue⟩ := Rational.mulInt_value hg hi
  have hexcess := Rational.product_excess hg hi
  unfold KeepsPrecision at hkeeps
  dsimp only at hkeeps
  rw [← hn, ← hd] at hkeeps hexcess
  rw [← hvalue, ← hsign]
  generalize gradient.mulInt i = p at *
  rcases hkeeps with hzero | hlost
  · -- the assignment takes common factors off only
    have hleft : 0 < Rational.leftOver p.numerator.toNat p.denominator.toNat := by
      unfold Rational.leftOver
      rw [hzero, Nat.pow_zero, Nat.div_one]
      exact Rational.denominator_pos hdefined
    have hassign := Rational.assign_within hexcess hleft
    have hclose := hassign.close
    unfold Rational.slack at hclose
    rw [if_pos hzero] at hclose
    have hexact := le_antisymm hclose (abs_nonneg _)
    refine ⟨hassign.restricted, hassign.negative, ?_, ?_⟩
    · rw [hexact, mul_zero]
      exact abs_nonneg _
    · rw [hexact, mul_zero]
      exact one_pos
  · have hlostPos := Rational.lost_pos p.numerator.toNat p.denominator.toNat
    have hleft : 0 < Rational.leftOver p.numerator.toNat p.denominator.toNat := by
      by_contra hnone
      rw [Nat.eq_zero_of_not_pos hnone, Nat.cast_zero, zero_mul] at hlost
      linarith
    have hleftq : (0 : ℚ) < Rational.leftOver p.numerator.toNat p.denominator.toNat :=
      Nat.cast_pos.mpr hleft
    have hassign := Rational.assign_within hexcess hleft
    have hclose := hassign.close
    have hslack : 6 * Rational.slack p.numerator.toNat p.denominator.toNat < min 1 |gradient.value| := by
      unfold Rational.slack
      split
      · rw [mul_zero]
        exact pos_of_mul_pos_right ((mul_pos three_pos hlostPos).trans hlost) hleftq.le
      · rw [mul_div_assoc', div_lt_iff₀ (by positivity)]
        linarith
    obtain ⟨hone, hgradient⟩ := lt_min_iff.mp hslack
    exact ⟨hassign.restricted, hassign.negative, by linarith, by linarith⟩

end Elapsed

/-- What is assigned to `ElapsedSourceTime` is on the line but for a fraction. -/
structure Elapses (s : ClockRecovery) (now : BitVec 64) : Prop where
  product : (s.establishedGradient.mulInt
    ((now - s.establishedBaseLocal).setWidth 32)).denominator ≠ 0
  restricted : (s.elapsedSourceTime now).Restricted
  negative : (s.elapsedSourceTime now).negative = s.establishedGradient.negative
  slope : 6 * |(s.elapsedSourceTime now).value - s.line now| ≤ |s.establishedGradient.value|
  micro : 6 * |(s.elapsedSourceTime now).value - s.line now| < 1

section Estimate

variable {s : ClockRecovery} {now later : BitVec 64}

theorem elapsed_toNat (h : s.establishedBaseLocal ≤ now) :
    (now - s.establishedBaseLocal).toNat = now.toNat - s.establishedBaseLocal.toNat := by
  have hle : s.establishedBaseLocal.toNat ≤ now.toNat := h
  rw [BitVec.toNat_sub_of_le h]

theorem line_eq (h : s.establishedBaseLocal ≤ now) :
    s.line now = s.establishedGradient.value * ((now - s.establishedBaseLocal).toNat : ℚ) := by
  have hle : s.establishedBaseLocal.toNat ≤ now.toNat := h
  unfold line
  rw [elapsed_toNat h, Nat.cast_sub hle]

theorem elapses (h : s.Live now) (hfits : s.EstimateFits now) : s.Elapses now := by
  have helapsed := hfits.elapsed
  have hint : ((now - s.establishedBaseLocal).setWidth 32).toInt =
      ((now - s.establishedBaseLocal).toNat : Nat) := by
    have htoNat : ((now - s.establishedBaseLocal).setWidth 32).toNat =
        (now - s.establishedBaseLocal).toNat := by
      rw [BitVec.toNat_setWidth, Nat.mod_eq_of_lt (by omega)]
    rw [BitVec.toInt_eq_toNat_of_lt (by omega), htoNat]
  obtain ⟨hrestricted, hnegative, hslope, hmicro⟩ := assign_keeps h.gradient hint hfits.keeps
  rw [← line_eq h.base] at hslope hmicro
  exact ⟨(Rational.mulInt_value h.gradient hint).1, hrestricted, hnegative, hslope, hmicro⟩

/-- What is added to the source base. -/
abbrev rounded (s : ClockRecovery) (now : BitVec 64) : BitVec 64 :=
  (s.elapsedSourceTime now).roundedLongLongIntegerPart

theorem Elapses.rounded_close (h : s.Elapses now) :
    3 * |((s.rounded now).toInt : ℚ) - s.line now| < 2 := by
  have hround := h.restricted.rounded_close
  have hmicro := h.micro
  have htriangle := abs_sub_le ((s.rounded now).toInt : ℚ) (s.elapsedSourceTime now).value
    (s.line now)
  linarith

theorem Elapses.rounded_bound (h : s.Elapses now) : (s.rounded now).toInt.natAbs ≤ 2 ^ 32 + 1 :=
  h.restricted.rounded_bound

theorem estimated_sub (s : ClockRecovery) (now : BitVec 64) :
    s.estimatedSourceTime now - s.establishedBaseSource = s.rounded now := by
  unfold estimatedSourceTime
  rw [BitVec.add_comm, BitVec.add_sub_cancel]

theorem estimated_valid (h : s.Elapses now) (hfits : s.EstimateFits now) :
    s.estimatedSourceTime now ≠ invalidTime := by
  intro hinvalid
  have hvalid := hfits.valid
  rw [← hinvalid, estimated_sub] at hvalid
  linarith [h.rounded_close]

theorem rebase_cases (s : ClockRecovery) (now : BitVec 64) :
    s.rebase now = s ∨
      s.rebase now = { s with
        establishedBaseLocal := now
        establishedBaseSource := s.estimatedSourceTime now } := by
  unfold rebase
  split
  · exact .inr rfl
  · exact .inl rfl

theorem Live.rebase (h : s.Live now) (hfits : s.EstimateFits now) (hlater : now ≤ later) :
    (s.rebase now).Live later := by
  rcases rebase_cases s now with heq | heq
  · rw [heq]
    exact ⟨h.initialized, h.format, h.established, h.gradient, BitVec.le_trans h.base hlater⟩
  · rw [heq]
    exact ⟨h.initialized, h.format, estimated_valid (elapses h hfits) hfits, h.gradient, hlater⟩

theorem estimate_live (h : s.Live now) : s.clockRecoveryEstimate now =
    (s.rebase now, ⟨.noError, s.estimatedSourceTime now, now⟩) := by
  unfold clockRecoveryEstimate
  rw [h.initialized, if_neg (by decide), if_neg h.established, h.format]

theorem estimate_none (hinitialized : s.initialized = true)
    (hline : s.establishedBaseSource = invalidTime) :
    s.clockRecoveryEstimate now = (s, ⟨.error, invalidTime, invalidTime⟩) := by
  unfold clockRecoveryEstimate
  rw [hinitialized, if_neg (by decide), if_pos hline]

theorem line_moved (source : BitVec 64) :
    s.line later = s.line now + line { s with
      establishedBaseLocal := now
      establishedBaseSource := source } later := by
  unfold line
  ring

theorem toInt_sum {a b c : BitVec 64} (ha : a.toInt.natAbs ≤ 2 ^ 32 + 1)
    (hb : b.toInt.natAbs ≤ 2 ^ 32 + 1) (hc : c.toInt.natAbs ≤ 2 ^ 32 + 1) :
    (a + b - c).toInt = a.toInt + b.toInt - c.toInt := by
  have hsum : (a + b).toInt = a.toInt + b.toInt := by
    rw [BitVec.toInt_add, Int.bmod_eq_of_le (by omega) (by omega)]
  rw [BitVec.toInt_sub, hsum, Int.bmod_eq_of_le (by omega) (by omega)]

theorem rebase_close (h : s.Live now) (hfits : s.EstimateFits now) (hlater : now ≤ later)
    (hwithout : s.EstimateFits later) (hwith : (s.rebase now).EstimateFits later) :
    ((s.rebase now).estimatedSourceTime later - s.estimatedSourceTime later).toInt.natAbs ≤ 1 := by
  have helapses := elapses h hfits
  have hmoved := elapses (h.rebase hfits hlater) hwith
  have hold : s.Live later :=
    ⟨h.initialized, h.format, h.established, h.gradient, BitVec.le_trans h.base hlater⟩
  have hunmoved := elapses hold hwithout
  rcases rebase_cases s now with heq | heq
  · rw [heq, BitVec.sub_self]
    decide
  · have hline := @line_moved s now later (s.estimatedSourceTime now)
    rw [← heq] at hline
    have hsplit : (s.rebase now).estimatedSourceTime later - s.estimatedSourceTime later =
        s.rounded now + (s.rebase now).rounded later - s.rounded later := by
      have hbase : (s.rebase now).establishedBaseSource = s.estimatedSourceTime now := by rw [heq]
      unfold estimatedSourceTime at hbase ⊢
      rw [hbase]
      ring
    rw [hsplit, toInt_sum helapses.rounded_bound hmoved.rounded_bound hunmoved.rounded_bound]
    have h1 := abs_lt.mp (by linarith [helapses.rounded_close] :
      |((s.rounded now).toInt : ℚ) - s.line now| < 2 / 3)
    have h2 := abs_lt.mp (by linarith [hmoved.rounded_close] :
      |(((s.rebase now).rounded later).toInt : ℚ) - (s.rebase now).line later| < 2 / 3)
    have h3 := abs_lt.mp (by linarith [hunmoved.rounded_close] :
      |((s.rounded later).toInt : ℚ) - s.line later| < 2 / 3)
    generalize hsum : (s.rounded now).toInt + ((s.rebase now).rounded later).toInt -
      (s.rounded later).toInt = difference
    have hcast : (difference : ℚ) = (s.rounded now).toInt + ((s.rebase now).rounded later).toInt -
        (s.rounded later).toInt := by
      rw [← hsum]
      push_cast
      ring
    have hlow : (-2 : Int) < difference := by
      have : (-2 : ℚ) < difference := by linarith
      exact_mod_cast this
    have hhigh : difference < 2 := by
      have : (difference : ℚ) < 2 := by linarith
      exact_mod_cast this
    omega

theorem positive_of_value {g : Rational} (h : 0 < g.value) : g.negative = false := by
  rw [Rational.value_signed] at h
  cases hnegative : g.negative with
  | false => rfl
  | true =>
    rw [hnegative, if_pos rfl, neg_pos] at h
    exact absurd h (not_lt.mpr (by positivity))

theorem Elapses.mono (h : s.Elapses now) (h' : s.Elapses later) (hlt : now < later)
    (hpos : 0 < s.establishedGradient.value) :
    (s.elapsedSourceTime now).value ≤ (s.elapsedSourceTime later).value := by
  have hslope := h.slope
  have hslope' := h'.slope
  rw [abs_of_pos hpos] at hslope hslope'
  have hadvance : s.line now + s.establishedGradient.value ≤ s.line later := by
    have hone : (now.toNat : ℚ) + 1 ≤ later.toNat := by
      exact_mod_cast Nat.succ_le_of_lt (BitVec.lt_def.mp hlt)
    unfold line
    nlinarith
  have hlow := (abs_le.mp (by linarith : |(s.elapsedSourceTime now).value - s.line now| ≤
    s.establishedGradient.value / 6)).2
  have hhigh := (abs_le.mp (by linarith : |(s.elapsedSourceTime later).value - s.line later| ≤
    s.establishedGradient.value / 6)).1
  linarith

theorem forwards (h : s.Live now) (hfits : s.EstimateFits now) (hlater : now ≤ later)
    (hnext : (s.rebase now).EstimateFits later) (hpos : 0 < s.establishedGradient.value) :
    0 ≤ ((s.rebase now).estimatedSourceTime later - s.estimatedSourceTime now).toInt := by
  have helapses := elapses h hfits
  have hmoved := elapses (h.rebase hfits hlater) hnext
  have hsign := positive_of_value hpos
  rcases rebase_cases s now with heq | heq
  · rw [heq] at hmoved ⊢
    by_cases heq : now = later
    · rw [heq, BitVec.sub_self]
      decide
    · have hlt : now < later := BitVec.lt_of_le_ne hlater heq
      have hle : (s.rounded now).toInt ≤ (s.rounded later).toInt :=
        helapses.restricted.rounded_mono hmoved.restricted (helapses.negative.trans hsign)
          (hmoved.negative.trans hsign) (helapses.mono hmoved hlt hpos)
      have hdiff : s.estimatedSourceTime later - s.estimatedSourceTime now =
          s.rounded later + 0 - s.rounded now := by
        unfold estimatedSourceTime
        ring
      rw [hdiff, toInt_sum hmoved.rounded_bound (by decide) helapses.rounded_bound]
      have hzero : (0 : BitVec 64).toInt = 0 := rfl
      omega
  · have hbase : (s.rebase now).establishedBaseSource = s.estimatedSourceTime now := by rw [heq]
    have hgradient : (s.rebase now).establishedGradient = s.establishedGradient := by rw [heq]
    rw [← hbase, estimated_sub]
    refine hmoved.restricted.rounded_nonneg ?_
    rw [hmoved.negative, hgradient, hsign]

theorem estimate_divisors (h : s.Live now) (hfits : s.EstimateFits now) :
    0 ∉ s.divisors (.estimate now) := by
  have helapses := elapses h hfits
  dsimp only [divisors]
  rw [if_neg h.established, List.mem_append, not_or, List.mem_singleton]
  exact ⟨Rational.restrictDivisors_ne_zero helapses.product, helapses.restricted.defined.symm⟩

end Estimate

/-! ## Data points -/

/-- Where a data point makes a line due, the fit with it can be read out. -/
def PointFits (s : ClockRecovery) (sourceTime localTime : BitVec 64) : Prop :=
  let s := (s.begin sourceTime localTime).accumulate sourceTime localTime
  s.due = true → s.leastSquareFit.Readable

instance (s : ClockRecovery) (sourceTime localTime : BitVec 64) :
    Decidable (s.PointFits sourceTime localTime) :=
  inferInstanceAs (Decidable (_ = true → LeastSquares.Readable _))

/-- What holds between calls, the last local time being `now`. -/
structure Consistent (s : ClockRecovery) (now : BitVec 64) : Prop where
  initialized : s.initialized = true
  format : s.sourceTimeFormat = .us
  points : s.baseSourceClock ≠ invalidTime → s.baseLocalClock ≤ now
  line : s.establishedBaseSource ≠ invalidTime →
    s.establishedGradient.Restricted ∧ s.establishedBaseLocal ≤ now

section DataPoint

variable {s : ClockRecovery} {now sourceTime localTime : BitVec 64} {policy : MasterClock}

theorem Consistent.live (h : s.Consistent now) (hline : s.establishedBaseSource ≠ invalidTime) :
    s.Live now :=
  ⟨h.initialized, h.format, hline, (h.line hline).1, (h.line hline).2⟩

theorem Consistent.later (h : s.Consistent now) (hlater : now ≤ localTime) :
    s.Consistent localTime :=
  ⟨h.initialized, h.format, fun hpoints => BitVec.le_trans (h.points hpoints) hlater,
    fun hline => ⟨(h.line hline).1, BitVec.le_trans (h.line hline).2 hlater⟩⟩

theorem consistent_initialize (s : ClockRecovery) (policy : MasterClock) :
    (s.clockRecoveryInitialize .us policy).Consistent 0 := by
  unfold clockRecoveryInitialize
  dsimp only
  split
  · exact ⟨rfl, rfl, fun h => absurd rfl h, fun h => absurd rfl h⟩
  · exact ⟨rfl, rfl, fun h => absurd rfl h, fun h => absurd rfl h⟩

theorem restricted_one : (Rational.ofInt 1).Restricted := ⟨by decide, by decide, by decide⟩

theorem Consistent.begin (h : s.Consistent localTime) (hsource : sourceTime ≠ invalidTime) :
    (s.begin sourceTime localTime).Consistent localTime ∧
      (s.begin sourceTime localTime).baseSourceClock ≠ invalidTime := by
  unfold ClockRecovery.begin
  split
  · dsimp only
    split
    · exact ⟨⟨h.initialized, h.format, fun _ => BitVec.le_refl _, fun _ =>
        ⟨restricted_one, BitVec.le_refl _⟩⟩, hsource⟩
    · exact ⟨⟨h.initialized, h.format, fun _ => BitVec.le_refl _, h.line⟩, hsource⟩
  · next hbegun => exact ⟨h, hbegun⟩

theorem Consistent.accumulate (h : s.Consistent localTime) :
    (s.accumulate sourceTime localTime).Consistent localTime :=
  ⟨h.initialized, h.format, h.points, h.line⟩

theorem Consistent.readOut (h : s.Consistent localTime) (hpoints : s.baseSourceClock ≠ invalidTime)
    (hreadable : s.leastSquareFit.Readable) : (s.readOut policy).Consistent localTime := by
  have hline := And.intro hreadable.gradient_assigns.restricted (h.points hpoints)
  unfold ClockRecovery.readOut
  dsimp only
  split
  · exact ⟨h.initialized, h.format, fun hnone => absurd rfl hnone, fun _ => hline⟩
  · exact ⟨h.initialized, h.format, fun hnone => absurd rfl hnone, fun _ => hline⟩

theorem dataPoint_eq (h : s.Consistent now) : s.step (.dataPoint policy sourceTime localTime) =
    let s := (s.begin sourceTime localTime).accumulate sourceTime localTime
    if s.due then s.readOut policy else s := by
  unfold step clockRecoveryDataPoint normalize
  dsimp only
  rw [h.initialized, h.format]
  rfl

theorem Consistent.dataPoint (h : s.Consistent localTime) (hsource : sourceTime ≠ invalidTime)
    (hfits : s.PointFits sourceTime localTime) :
    (s.step (.dataPoint policy sourceTime localTime)).Consistent localTime := by
  obtain ⟨hbegun, hpoints⟩ := h.begin hsource
  rw [dataPoint_eq h]
  dsimp only
  split
  · next hdue => exact hbegun.accumulate.readOut hpoints (hfits hdue)
  · exact hbegun.accumulate

theorem dataPoint_divisors (hfits : s.PointFits sourceTime localTime) :
    0 ∉ s.divisors (.dataPoint policy sourceTime localTime) := by
  dsimp only [divisors]
  split
  · next hdue =>
    have hreadable := hfits hdue
    unfold readOutDivisors
    rw [List.mem_append, List.mem_append, List.mem_append, not_or, not_or, not_or,
      List.mem_singleton]
    refine ⟨⟨⟨hreadable.divisors_ne_zero, ?_⟩, hreadable.intercept_defined.symm⟩, ?_⟩
    · exact Rational.restrictDivisors_ne_zero hreadable.gradient_defined
    · split
      · exact Rational.restrictDivisors_ne_zero hreadable.gradient_assigns.defined
      · exact List.not_mem_nil
  · exact List.not_mem_nil

theorem Consistent.estimate (h : s.Consistent now) (hlater : now ≤ localTime)
    (hfits : s.establishedBaseSource ≠ invalidTime → s.EstimateFits localTime) :
    (s.step (.estimate localTime)).Consistent localTime := by
  have hlate := h.later hlater
  by_cases hline : s.establishedBaseSource = invalidTime
  · have hnone : s.step (.estimate localTime) = s := by
      dsimp only [step]
      rw [estimate_none h.initialized hline]
    rw [hnone]
    exact hlate
  · have hlive := hlate.live hline
    have hmoved := hlive.rebase (hfits hline) (BitVec.le_refl _)
    have hstep : s.step (.estimate localTime) = s.rebase localTime := by
      dsimp only [step]
      rw [estimate_live hlive]
    have hpoints : (s.rebase localTime).baseSourceClock = s.baseSourceClock ∧
        (s.rebase localTime).baseLocalClock = s.baseLocalClock := by
      rcases rebase_cases s localTime with heq | heq
      · rw [heq]
        exact ⟨rfl, rfl⟩
      · rw [heq]
        exact ⟨rfl, rfl⟩
    rw [hstep]
    refine ⟨hmoved.initialized, hmoved.format, ?_, fun _ => ⟨hmoved.gradient, hmoved.base⟩⟩
    rw [hpoints.1, hpoints.2]
    exact hlate.points

end DataPoint

/-! ## Every run -/

/-- What a call needs. -/
def Fits (s : ClockRecovery) : Call → Prop
  | .dataPoint _ sourceTime localTime => s.PointFits sourceTime localTime
  | .estimate now => s.establishedBaseSource ≠ invalidTime → s.EstimateFits now

instance (s : ClockRecovery) : (call : Call) → Decidable (s.Fits call)
  | .dataPoint _ sourceTime localTime => inferInstanceAs (Decidable (s.PointFits sourceTime localTime))
  | .estimate _ => inferInstanceAs (Decidable (_ → _))

/-- The state that an estimate leaves. -/
abbrev after (s : ClockRecovery) (now : BitVec 64) : ClockRecovery :=
  (s.clockRecoveryEstimate now).1

abbrev reading (s : ClockRecovery) (now : BitVec 64) : Estimate :=
  (s.clockRecoveryEstimate now).2

/-- An estimate is on the established line to within a microsecond, and its rebase changes
later ones by no more. Source times are compared by their 64-bit difference, and later
estimates where both are `ok`. -/
structure Accurate (ok : ClockRecovery → BitVec 64 → Prop) (s : ClockRecovery)
    (now : BitVec 64) : Prop where
  close : |(((s.reading now).sourceTime - s.establishedBaseSource).toInt : ℚ) - s.line now| ≤ 1
  rebase : ∀ later, now ≤ later → later.toNat < 2 ^ 60 → ok s later → ok (s.after now) later →
    ((s.after now).reading later).status = .noError ∧
      (((s.after now).reading later).sourceTime -
        (s.reading later).sourceTime).toInt.natAbs ≤ 1

/-- Every estimate that a run gives is accurate, of two with no call between them the second
is not before the first, and no call divides by 0. -/
structure FollowsLine (ok : ClockRecovery → BitVec 64 → Prop) (s : ClockRecovery)
    (calls : List Call) : Prop where
  divides : ∀ pre call post, calls = pre ++ call :: post →
    0 ∉ (pre.foldl step s).divisors call
  accurate : ∀ pre now post, calls = pre ++ .estimate now :: post →
    ((pre.foldl step s).reading now).status = .noError → (pre.foldl step s).Accurate ok now
  forwards : ∀ pre now next post, calls = pre ++ .estimate now :: .estimate next :: post →
    ((pre.foldl step s).reading now).status = .noError →
    0 < (pre.foldl step s).establishedGradient.value →
    0 ≤ ((((pre.foldl step s).after now).reading next).sourceTime -
      ((pre.foldl step s).reading now).sourceTime).toInt

section Runs

variable {s : ClockRecovery} {lastSource lastLocal now : BitVec 64}

theorem ne_invalidTime {time : BitVec 64} (h : time.toNat < 2 ^ 60) : time ≠ invalidTime := by
  rintro rfl
  exact absurd h (by decide)

theorem Consistent.step {call : Call} {calls : List Call} (h : s.Consistent lastLocal)
    (hordered : Ordered lastSource lastLocal (call :: calls)) (hfits : s.Fits call) :
    ∃ lastSource' lastLocal', (s.step call).Consistent lastLocal' ∧
      Ordered lastSource' lastLocal' calls := by
  cases call with
  | dataPoint policy sourceTime localTime =>
    obtain ⟨-, hlocal, hsource, -, hrest⟩ := hordered
    exact ⟨sourceTime, localTime, (h.later hlocal).dataPoint (ne_invalidTime hsource) hfits, hrest⟩
  | estimate now =>
    obtain ⟨hlocal, -, hrest⟩ := hordered
    exact ⟨lastSource, now, h.estimate hlocal hfits, hrest⟩

theorem Consistent.run {pre : List Call} {calls : List Call} (h : s.Consistent lastLocal)
    (hordered : Ordered lastSource lastLocal (pre ++ calls))
    (hfits : Along ClockRecovery.step Fits s (pre ++ calls)) :
    ∃ lastSource' lastLocal', (pre.foldl ClockRecovery.step s).Consistent lastLocal' ∧
      Ordered lastSource' lastLocal' calls ∧
      Along ClockRecovery.step Fits (pre.foldl ClockRecovery.step s) calls := by
  induction pre generalizing s lastSource lastLocal with
  | nil => exact ⟨lastSource, lastLocal, h, hordered, hfits⟩
  | cons call pre ih =>
    obtain ⟨lastSource', lastLocal', hnext, hrest⟩ := h.step hordered hfits.1
    exact ih hnext hrest hfits.2

theorem Consistent.established (h : s.Consistent lastLocal)
    (hstatus : (s.reading now).status = .noError) : s.establishedBaseSource ≠ invalidTime := by
  intro hline
  rw [reading, estimate_none h.initialized hline] at hstatus
  cases hstatus

theorem accurate (h : s.Live now) (hfits : s.EstimateFits now) : s.Accurate EstimateFits now := by
  have helapses := elapses h hfits
  have hreading := estimate_live h
  refine ⟨?_, fun later hlater _ hwithout hwith => ?_⟩
  · rw [reading, hreading, estimated_sub]
    linarith [helapses.rounded_close]
  · rw [after, hreading] at hwith ⊢
    have hold : s.Live later :=
      ⟨h.initialized, h.format, h.established, h.gradient, BitVec.le_trans h.base hlater⟩
    rw [reading, reading, estimate_live (h.rebase hfits hlater), estimate_live hold]
    exact ⟨rfl, rebase_close h hfits hlater hwithout hwith⟩

theorem call_divisors {call : Call} {calls : List Call} (h : s.Consistent lastLocal)
    (hordered : Ordered lastSource lastLocal (call :: calls)) (hfits : s.Fits call) :
    0 ∉ s.divisors call := by
  cases call with
  | dataPoint policy sourceTime localTime => exact dataPoint_divisors hfits
  | estimate now =>
    by_cases hline : s.establishedBaseSource = invalidTime
    · dsimp only [divisors]
      rw [if_pos hline]
      exact List.not_mem_nil
    · exact estimate_divisors ((h.later hordered.1).live hline) (hfits hline)

end Runs

theorem estimates_follow (s : ClockRecovery) (policy : MasterClock) (calls : List Call)
    (hordered : Ordered 0 0 calls)
    (hfits : Along step Fits (s.clockRecoveryInitialize .us policy) calls) :
    FollowsLine EstimateFits (s.clockRecoveryInitialize .us policy) calls := by
  have hstart := consistent_initialize s policy
  constructor
  · rintro pre call post rfl
    obtain ⟨lastSource, lastLocal, hstate, hrest, hnext, -⟩ := hstart.run hordered hfits
    exact call_divisors hstate hrest hnext
  · rintro pre now post rfl hstatus
    obtain ⟨lastSource, lastLocal, hstate, hrest, hnext, -⟩ := hstart.run hordered hfits
    have hline := hstate.established hstatus
    exact accurate ((hstate.later hrest.1).live hline) (hnext hline)
  · rintro pre now next post rfl hstatus hpos
    obtain ⟨lastSource, lastLocal, hstate, hrest, hnow, hnext, -⟩ := hstart.run hordered hfits
    have hline := hstate.established hstatus
    have hlive := (hstate.later hrest.1).live hline
    have hmoved := hlive.rebase (hnow hline) hrest.2.2.1
    have hstep := estimate_live hlive
    dsimp only [step] at hnext
    rw [hstep] at hnext
    rw [after, reading, reading, hstep, estimate_live hmoved]
    exact forwards hlive (hnow hline) hrest.2.2.1 (hnext hmoved.established) hpos

/-- Nothing has been set yet. -/
def unset : ClockRecovery where
  initialized := false
  sourceTimeFormat := .us
  lastPts := 0
  ptsBaseLine := 0
  baseSourceClock := 0
  baseLocalClock := 0
  accumulatedPoints := 0
  integrationTime := 0
  leastSquareFit := .reset
  establishedGradient := .ofInt 0
  establishedBaseSource := 0
  establishedBaseLocal := 0
  systemClockAdjustmentEstablished := false
  systemClockAdjustment := .ofInt 0

/-- Three seconds of points on a line of slope 2, which is read out and followed past a
rebase. -/
def twice : List Call :=
  [.dataPoint .systemClockMaster 0 0, .dataPoint .systemClockMaster 0x200000 0x100000,
    .dataPoint .systemClockMaster 0x400000 0x200000, .dataPoint .systemClockMaster 0x600000 0x300000,
    .estimate 600000000, .estimate 600000001]

theorem estimates_follow_twice :
    FollowsLine EstimateFits (unset.clockRecoveryInitialize .us .systemClockMaster) twice :=
  estimates_follow unset .systemClockMaster twice (by decide +kernel) (by decide +kernel)

/-- The time since the base is `2 ^ 32` microseconds, and 0 as an `int`: the second estimate
is where the data point was. -/
theorem estimates_truncate :
    ¬∀ (s : ClockRecovery) (policy : MasterClock) (calls : List Call), Ordered 0 0 calls →
      FollowsLine (fun _ _ => True) (s.clockRecoveryInitialize .us policy) calls := by
  intro hall
  have hfollows := hall unset .systemClockMaster
    [.dataPoint .systemClockMaster 0 0, .estimate 0x100000000]
    (by decide)
  have hclose := (hfollows.accurate [.dataPoint .systemClockMaster 0 0] 0x100000000 [] rfl
    (by decide +kernel)).close
  exact absurd hclose (by decide +kernel)

end ClockRecovery

end Duckbox.OutputCoordinator
