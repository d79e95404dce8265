import Duckbox.H264.PicOrderCnt
import Duckbox.Lib.Unwrap
import Duckbox.Lib.Slots

/-!
# Type 0 order counts over a run

A stream transmits the low bits of each order count; the parser carries the
count of the previous reference picture as `PrevPicOrderCntMsb` and
`PrevPicOrderCntLsb` and unwraps against it. The true counts are integers that
restart at an IDR, and at a clear, where the standard takes the picture's own
order count off it: a frame with counts `T` and `B` leaves `T - min T B`, a
field leaves `0`.

> `Carries s g`: the two members add up to the count `g` of the previous
> reference picture since the last restart.

A picture that carries on from there is unwrapped to its true counts
(`Carries.fieldOrderCnts`) and leaves its own behind (`Carries.update`), with
one exception: on a clear of a frame or a top field the source stores the top
count as it was before the restart. Where that count is what remains after the
restart anyway, `ClearAtZero`, the run goes on exactly.
-/

namespace Duckbox.H264

open Duckbox.Lib

/-! ## Streams and their true counts -/

/-- A picture with its true field order counts since the last restart. -/
structure TruePicture where
  header : SliceHeader
  dpbOutputDelay : Word
  top : Int
  bottom : Int

namespace TruePicture

/-- The count whose low bits the header holds. -/
def coded (p : TruePicture) : Int := if p.header.bottomField then p.bottom else p.top

/-- The order count of the picture. -/
def picOrderCnt (p : TruePicture) : Int :=
  if p.header.fieldPicFlag then p.coded else min p.top p.bottom

/-- What a clear leaves of the count that later pictures are coded against. -/
def rebased (p : TruePicture) : Int := p.coded - p.picOrderCnt

/-- Half of `MaxPicOrderCntLsb`. -/
def half (p : TruePicture) : Int := 2 ^ (p.header.sps.log2MaxPicOrderCntLsbMinus4 + 3)

/-- The header transmits the counts, type 0. -/
structure Transmits (p : TruePicture) : Prop where
  type0 : p.header.sps.picOrderCntType = 0
  lsb : (p.header.picOrderCntLsb.toNat : Int) = p.coded % (2 * p.half)
  delta : p.header.fieldPicFlag = false →
    p.header.deltaPicOrderCntBottom = BitVec.ofInt 32 (p.bottom - p.top)

end TruePicture

/-- The previous reference picture, as later pictures are coded against it: its
count since the last restart, and half the modulus of its sequence. -/
structure Previous where
  count : Int
  half : Int

namespace Previous

/-- An IDR restarts the counts before it is coded. -/
def entry (g : Previous) (p : TruePicture) : Int := if p.header.idr then 0 else g.count

/-- What the picture after `p` is coded against: a clear restarts the counts
after its picture. -/
def next (g : Previous) (p : TruePicture) : Previous where
  count :=
    if p.header.reference then
      if p.header.memoryControlClearSeen then p.rebased else p.coded
    else g.entry p
  half := p.half

/-- `p` may follow: its count is transmitted and lies less than half a modulus
from the previous one, and the modulus only changes at an IDR. -/
structure Admits (g : Previous) (p : TruePicture) : Prop where
  transmits : p.Transmits
  half : p.header.idr = true ∨ p.half = g.half
  low : g.entry p - p.half < p.coded
  high : p.coded < g.entry p + p.half

/-- Every picture of the run may follow the ones before it. -/
def AdmitsAll : Previous → List TruePicture → Prop
  | _, [] => True
  | g, p :: ps => g.Admits p ∧ (g.next p).AdmitsAll ps

end Previous

/-- At a clear, what is left of the count is the count itself: the picture is a
bottom field, or its order count is zero (and the top count of such a frame is
one the two comparisons can still unwrap from). -/
def ClearAtZero (p : TruePicture) : Prop :=
  p.header.memoryControlClearSeen = true → p.header.bottomField = false →
    p.picOrderCnt = 0 ∧ p.top ≤ 3 * p.half

/-- The counts of a run. -/
def runCounts (s : PicOrder) : List TruePicture → List OrderCounts
  | [] => []
  | p :: ps =>
    let r := s.commitFrame p.header p.dpbOutputDelay
    r.2 :: runCounts r.1 ps

/-- The counts the header receives are the true ones, in the machine's 32 bits:
both of a frame, its own of a field. -/
def Correct (p : TruePicture) (c : OrderCounts) : Prop :=
  (p.header.bottomField = false → c.picOrderCntTop = BitVec.ofInt 32 p.top) ∧
  (p.header.fieldPicFlag = false ∨ p.header.bottomFieldFlag = true →
    c.picOrderCntBot = BitVec.ofInt 32 p.bottom)

/-! ## The comparisons of the source -/

private theorem ofInt_toNat (x : Word) : BitVec.ofInt 32 (x.toNat : Int) = x := by
  rw [BitVec.ofInt_natCast, BitVec.ofNat_toNat, BitVec.setWidth_eq]

private theorem ofInt_sub_eq (x y : Int) :
    BitVec.ofInt 32 (x - y) = BitVec.ofInt 32 x - BitVec.ofInt 32 y := by
  rw [Int.sub_eq_add_neg, BitVec.ofInt_add, BitVec.ofInt_neg, BitVec.sub_eq_add_neg]

private theorem far_above {x y c : Word} :
    (x < y ∧ c ≤ y - x) ↔ ((x.toNat : Int) < y.toNat ∧ (c.toNat : Int) ≤ y.toNat - x.toNat) := by
  rw [BitVec.lt_def, BitVec.le_def]
  constructor
  · rintro ⟨hlt, hfar⟩
    rw [BitVec.toNat_sub_of_le (Nat.le_of_lt hlt)] at hfar
    omega
  · rintro ⟨hlt, hfar⟩
    have hlt : x.toNat < y.toNat := by omega
    rw [BitVec.toNat_sub_of_le (Nat.le_of_lt hlt)]
    omega

private theorem far_below {x y c : Word} :
    (x < y ∧ c < y - x) ↔ ((x.toNat : Int) < y.toNat ∧ (c.toNat : Int) < y.toNat - x.toNat) := by
  rw [BitVec.lt_def, BitVec.lt_def]
  constructor
  · rintro ⟨hlt, hfar⟩
    rw [BitVec.toNat_sub_of_le (Nat.le_of_lt hlt)] at hfar
    omega
  · rintro ⟨hlt, hfar⟩
    have hlt : x.toNat < y.toNat := by omega
    rw [BitVec.toNat_sub_of_le (Nat.le_of_lt hlt)]
    omega

theorem picOrderCntMsb_eq {max prevLsb lsb : Word} {half msb : Int}
    (hmax : (max.toNat : Int) = 2 * half) :
    picOrderCntMsb max (BitVec.ofInt 32 msb) prevLsb lsb
      = BitVec.ofInt 32 (selectMsb half msb prevLsb.toNat lsb.toNat) := by
  have hword : max = BitVec.ofInt 32 (2 * half) := by rw [← hmax, ofInt_toNat]
  have hhalf : ((max / 2).toNat : Int) = half := by
    rw [BitVec.toNat_udiv]
    show ((max.toNat / 2 : Nat) : Int) = half
    omega
  have habove := far_above (x := lsb) (y := prevLsb) (c := max / 2)
  have hbelow := far_below (x := prevLsb) (y := lsb) (c := max / 2)
  rw [hhalf] at habove hbelow
  unfold picOrderCntMsb selectMsb
  by_cases h1 : (lsb.toNat : Int) < prevLsb.toNat ∧ half ≤ (prevLsb.toNat : Int) - lsb.toNat
  · rw [if_pos (habove.mpr h1), if_pos h1, BitVec.ofInt_add, ← hword]
  · rw [if_neg (fun h => h1 (habove.mp h)), if_neg h1]
    by_cases h2 : (prevLsb.toNat : Int) < lsb.toNat ∧ half < (lsb.toNat : Int) - prevLsb.toNat
    · rw [if_pos (hbelow.mpr h2), if_pos h2, ofInt_sub_eq, ← hword]
    · rw [if_neg (fun h => h2 (hbelow.mp h)), if_neg h2]

namespace TruePicture

theorem half_pos (p : TruePicture) : 0 < p.half := by
  unfold half
  exact Int.pow_pos (by decide)

theorem half_le (p : TruePicture) : p.half ≤ 2 ^ 15 := by
  have hk := p.header.sps.log2MaxPicOrderCntLsb_le
  have hpow : 2 ^ (p.header.sps.log2MaxPicOrderCntLsbMinus4 + 3) ≤ 2 ^ 15 :=
    Nat.pow_le_pow_right (by decide) (by omega)
  unfold half
  exact_mod_cast hpow

theorem max_eq (p : TruePicture) :
    ((BitVec.ofNat 32 p.header.sps.maxPicOrderCntLsb).toNat : Int) = 2 * p.half := by
  have hle := p.half_le
  have htwo : ((p.header.sps.maxPicOrderCntLsb : Nat) : Int) = 2 * p.half := by
    unfold SequenceParameterSet.maxPicOrderCntLsb half
    rw [Nat.pow_succ 2 (_ + 3)]
    push_cast
    exact Int.mul_comm _ _
  rw [BitVec.toNat_ofNat, Nat.mod_eq_of_lt (by omega), htwo]

end TruePicture

/-! ## One picture -/

/-- The carried members add up to the count of the previous reference picture. -/
structure Carries (s : PicOrder) (g : Previous) : Prop where
  seen : s.behaveAsIfSeenAnIDR = true
  sum : ∃ msb : Int, s.prevPicOrderCntMsb = BitVec.ofInt 32 msb ∧
    2 * g.half ∣ msb ∧ msb + s.prevPicOrderCntLsb.toNat = g.count
  lsb_le : (s.prevPicOrderCntLsb.toNat : Int) ≤ 3 * g.half

variable {s : PicOrder} {g : Previous} {p : TruePicture}

theorem entry_sum (hs : p.header.idr = true ∨ Carries s g) (ha : g.Admits p) :
    ∃ msb : Int, (s.entry p.header).1 = BitVec.ofInt 32 msb ∧ 2 * p.half ∣ msb ∧
      msb + (s.entry p.header).2.toNat = g.entry p ∧
      ((s.entry p.header).2.toNat : Int) ≤ 3 * p.half := by
  have hpos := p.half_pos
  unfold PicOrder.entry Previous.entry
  by_cases hi : p.header.idr = true
  · rw [if_pos hi, if_pos hi]
    exact ⟨0, rfl, Int.dvd_zero _, rfl, by show (0 : Int) ≤ 3 * p.half; omega⟩
  · rw [if_neg hi, if_neg hi]
    have hc := hs.resolve_left hi
    obtain ⟨msb, hmsb, hdvd, hsum⟩ := hc.sum
    have hhalf := ha.half.resolve_left hi
    rw [hhalf]
    exact ⟨msb, hmsb, hdvd, hsum, hc.lsb_le⟩

theorem msb_sum (hs : p.header.idr = true ∨ Carries s g) (ha : g.Admits p) :
    ∃ msb : Int, s.msb p.header = BitVec.ofInt 32 msb ∧ 2 * p.half ∣ msb ∧
      msb + p.header.picOrderCntLsb.toNat = p.coded := by
  obtain ⟨msb, hmsb, hdvd, hsum, hle⟩ := entry_sum hs ha
  have hlow := ha.low
  have hhigh := ha.high
  refine ⟨selectMsb p.half msb (s.entry p.header).2.toNat p.header.picOrderCntLsb.toNat,
    ?_, dvd_selectMsb hdvd, ?_⟩
  · unfold PicOrder.msb
    rw [hmsb]
    exact picOrderCntMsb_eq p.max_eq
  · rw [ha.transmits.lsb]
    exact selectMsb_add hdvd (Int.natCast_nonneg _) hle (by omega) (by omega)

theorem msb_add_lsb (hs : p.header.idr = true ∨ Carries s g) (ha : g.Admits p) :
    s.msb p.header + p.header.picOrderCntLsb = BitVec.ofInt 32 p.coded := by
  obtain ⟨msb, hmsb, -, hsum⟩ := msb_sum hs ha
  rw [hmsb, ← hsum, BitVec.ofInt_add, ofInt_toNat]

theorem fieldOrderCnts_correct (hs : p.header.idr = true ∨ Carries s g) (ha : g.Admits p) :
    (p.header.bottomField = false →
      (s.fieldOrderCnts0 p.header).1 = BitVec.ofInt 32 p.top) ∧
    (p.header.fieldPicFlag = false ∨ p.header.bottomFieldFlag = true →
      (s.fieldOrderCnts0 p.header).2 = BitVec.ofInt 32 p.bottom) := by
  have hsum := msb_add_lsb hs ha
  have htop : p.header.bottomField = false →
      (s.fieldOrderCnts0 p.header).1 = BitVec.ofInt 32 p.top := by
    intro hb
    unfold PicOrder.fieldOrderCnts0
    unfold TruePicture.coded at hsum
    rw [hb] at hsum ⊢
    exact hsum
  refine ⟨htop, ?_⟩
  intro hframe
  cases hf : p.header.fieldPicFlag with
  | false =>
    have hb : p.header.bottomField = false := by
      unfold SliceHeader.bottomField
      rw [hf, Bool.false_and]
    have hadd : (s.fieldOrderCnts0 p.header).2
        = (s.fieldOrderCnts0 p.header).1 + p.header.deltaPicOrderCntBottom := by
      unfold PicOrder.fieldOrderCnts0
      simp only [hf, Bool.not_false, if_true]
    rw [hadd, htop hb, ha.transmits.delta hf, ← BitVec.ofInt_add]
    congr 1
    omega
  | true =>
    have hbf : p.header.bottomFieldFlag = true := by
      rcases hframe with h | h
      · rw [hf] at h
        cases h
      · exact h
    have hb : p.header.bottomField = true := by
      unfold SliceHeader.bottomField
      rw [hf, hbf, Bool.and_self]
    unfold PicOrder.fieldOrderCnts0
    unfold TruePicture.coded at hsum
    rw [hb, if_pos rfl] at hsum
    simp only [hf, hbf, Bool.not_true, Bool.false_eq_true, if_false, if_true]
    exact hsum

theorem Carries.update (hs : p.header.idr = true ∨ Carries s g) (ha : g.Admits p)
    (hclear : ClearAtZero p) (hseen : s.behaveAsIfSeenAnIDR = true) :
    Carries (s.update0 p.header) (g.next p) := by
  have hpos := p.half_pos
  have hhalf := p.half_le
  have hlsb : (p.header.picOrderCntLsb.toNat : Int) < 2 * p.half := by
    rw [ha.transmits.lsb]
    exact Int.emod_lt_of_pos _ (by omega)
  unfold PicOrder.update0 Previous.next
  by_cases href : p.header.reference = true
  · have hne : (p.header.nalRefIdc != 0) = true := href
    simp only [hne, href, if_true]
    by_cases hmmc : p.header.memoryControlClearSeen = true
    · simp only [hmmc, if_true]
      by_cases hb : p.header.bottomField = true
      · -- a bottom field leaves nothing
        have hfield : p.header.fieldPicFlag = true := by
          unfold SliceHeader.bottomField at hb
          rw [Bool.and_eq_true] at hb
          exact hb.1
        have hzero : p.rebased = 0 := by
          unfold TruePicture.rebased TruePicture.picOrderCnt
          rw [if_pos hfield, Int.sub_self]
        refine ⟨hseen, ⟨0, rfl, Int.dvd_zero _, ?_⟩, ?_⟩
        · rw [if_pos hb]
          show (0 : Int) + 0 = p.rebased
          omega
        · rw [if_pos hb]
          show (0 : Int) ≤ 3 * p.half
          omega
      · -- a frame or top field: the stored top count is what the restart leaves
        have hb : p.header.bottomField = false := by simpa using hb
        obtain ⟨hzero, hle⟩ := hclear hmmc hb
        have hcoded : p.coded = p.top := by
          unfold TruePicture.coded
          rw [hb]
          rfl
        have hnonneg : 0 ≤ p.top := by
          unfold TruePicture.picOrderCnt at hzero
          rw [hcoded] at hzero
          split at hzero
          · omega
          · omega
        have hrebased : p.rebased = p.top := by
          unfold TruePicture.rebased
          rw [hzero, hcoded, Int.sub_zero]
        have htop := (fieldOrderCnts_correct hs ha).1 hb
        have hnat : ((s.fieldOrderCnts0 p.header).1.toNat : Int) = p.top := by
          rw [htop, BitVec.toNat_ofInt]
          omega
        refine ⟨hseen, ⟨0, rfl, Int.dvd_zero _, ?_⟩, ?_⟩
        · rw [hb]
          show (0 : Int) + ((s.fieldOrderCnts0 p.header).1.toNat : Int) = p.rebased
          omega
        · rw [hb]
          show ((s.fieldOrderCnts0 p.header).1.toNat : Int) ≤ 3 * p.half
          omega
    · have hmmc : p.header.memoryControlClearSeen = false := by simpa using hmmc
      simp only [hmmc, Bool.false_eq_true, if_false]
      obtain ⟨msb, hmsb, hdvd, hsum⟩ := msb_sum hs ha
      refine ⟨hseen, ⟨msb, hmsb, hdvd, hsum⟩, ?_⟩
      show (p.header.picOrderCntLsb.toNat : Int) ≤ 3 * p.half
      omega
  · -- not a reference picture: only an IDR's restart is carried
    have href : p.header.reference = false := by simpa using href
    have hne : (p.header.nalRefIdc != 0) = false := href
    simp only [hne, href, Bool.false_eq_true, if_false]
    obtain ⟨msb, hmsb, hdvd, hsum, hle⟩ := entry_sum hs ha
    exact ⟨hseen, ⟨msb, hmsb, hdvd, hsum⟩, hle⟩

/-! ## Runs -/

theorem commitFrame_correct (hs : p.header.idr = true ∨ Carries s g) (ha : g.Admits p)
    (hclear : ClearAtZero p) :
    Correct p (s.commitFrame p.header p.dpbOutputDelay).2 ∧
      Carries (s.commitFrame p.header p.dpbOutputDelay).1 (g.next p) := by
  generalize ht : s.readNalSliceHeader p.header = t
  have hseen : t.behaveAsIfSeenAnIDR = true := by
    rw [← ht]
    unfold PicOrder.readNalSliceHeader
    split
    · rfl
    · next hi =>
      have hc := hs.resolve_left hi
      rw [hc.seen]
      exact hc.seen
  -- with a picture or an IDR before it, no slice is taken for the first of a stream
  have hcarry : p.header.idr = true ∨ Carries t g := by
    rcases hs with hi | hc
    · exact .inl hi
    · by_cases hi : p.header.idr = true
      · exact .inl hi
      · right
        rw [← ht]
        unfold PicOrder.readNalSliceHeader
        rw [if_neg hi, hc.seen]
        exact hc
  have hcounts := fieldOrderCnts_correct hcarry ha
  have hnext := Carries.update hcarry ha hclear hseen
  have htype := ha.transmits.type0
  unfold PicOrder.commitFrame PicOrder.calculatePicOrderCnts
  rw [ht]
  constructor
  · unfold Correct PicOrder.orderCounts PicOrder.fieldOrderCnts
    rw [htype]
    exact hcounts
  · have hcarried : t.updateCarried p.header = t.update0 p.header := by
      simp only [PicOrder.updateCarried, htype]
    rw [hcarried]
    generalize t.update0 p.header = u at hnext ⊢
    have hopen : Carries (u.openBlock p.header) (g.next p) := by
      unfold PicOrder.openBlock
      split
      · exact ⟨hnext.seen, hnext.sum, hnext.lsb_le⟩
      · exact hnext
    have hclose : Carries ((u.openBlock p.header).closeBlock p.header) (g.next p) := by
      unfold PicOrder.closeBlock
      split
      · exact ⟨hopen.seen, hopen.sum, hopen.lsb_le⟩
      · exact hopen
    simp only
    unfold PicOrder.markClear
    split
    · exact ⟨hclose.seen, hclose.sum, hclose.lsb_le⟩
    · exact hclose

theorem runCounts_correct (ps : List TruePicture) :
    ∀ {s : PicOrder} {g : Previous}, (Carries s g ∨ ∀ p ∈ ps.head?, p.header.idr = true) →
      g.AdmitsAll ps → (∀ p ∈ ps, ClearAtZero p) →
      ∀ pc ∈ ps.zip (runCounts s ps), Correct pc.1 pc.2 := by
  induction ps with
  | nil => intro s g _ _ _ pc hpc; cases hpc
  | cons p rest ih =>
    intro s g hs ha hclear pc hpc
    have hstart : p.header.idr = true ∨ Carries s g := by
      rcases hs with hc | hi
      · exact .inr hc
      · exact .inl (hi p rfl)
    obtain ⟨hcorrect, hcarries⟩ := commitFrame_correct hstart ha.1 (hclear p List.mem_cons_self)
    rcases List.mem_cons.mp hpc with rfl | hrest
    · exact hcorrect
    · exact ih (.inl hcarries) ha.2 (fun q hq => hclear q (List.mem_cons_of_mem _ hq)) pc hrest

/-- **Type 0 order counts are unwrapped to the true ones** in every run that
begins with an IDR and in which every clear leaves the count it finds. -/
theorem picOrderCnt_type0_correct {ps : List TruePicture} {g : Previous} (s : PicOrder)
    (hfirst : ∀ p ∈ ps.head?, p.header.idr = true) (hrun : g.AdmitsAll ps)
    (hclear : ∀ p ∈ ps, ClearAtZero p) :
    ∀ pc ∈ ps.zip (runCounts s ps), Correct pc.1 pc.2 :=
  runCounts_correct ps (.inr hfirst) hrun hclear

/-! ## A clear at a non-zero count -/

/-- A reference frame with both counts `n`. -/
def shortFrame (idr : Bool) (n : Fin 16) (ops : List MemoryManagementControl) : TruePicture where
  header := shortHeader idr 0 n 0 ops
  dpbOutputDelay := 0
  top := n.val
  bottom := n.val

theorem shortFrame_admits {g : Previous} {idr : Bool} {n : Fin 16}
    {ops : List MemoryManagementControl} (hg : g.half = 8)
    (hlow : g.entry (shortFrame idr n ops) - 8 < n.val)
    (hhigh : (n.val : Int) < g.entry (shortFrame idr n ops) + 8) :
    g.Admits (shortFrame idr n ops) := by
  have hn := n.isLt
  have hlsb : ((BitVec.ofNat 32 n.val).toNat : Int) = n.val := by
    rw [BitVec.toNat_ofNat, Nat.mod_eq_of_lt (by omega)]
  refine ⟨⟨rfl, ?_, ?_⟩, .inr hg.symm, hlow, hhigh⟩
  · show ((BitVec.ofNat 32 n.val).toNat : Int) = (n.val : Int) % (2 * 8)
    omega
  · intro _
    show (0 : Word) = BitVec.ofInt 32 ((n.val : Int) - n.val)
    rw [Int.sub_self]
    rfl

/-- Counts 0, 6, 12 with a clear on the last: the next reference frame, true
count 2, is unwrapped against 12 and taken for 18. -/
theorem picOrderCnt_type0_wrong_after_clear :
    let ps := [shortFrame true 0 [], shortFrame false 6 [], shortFrame false 12 [.clear],
      shortFrame false 2 []]
    (∀ p ∈ ps.head?, p.header.idr = true) ∧ (⟨0, 8⟩ : Previous).AdmitsAll ps ∧
      ¬ ∀ pc ∈ ps.zip (runCounts PicOrder.reset ps), Correct pc.1 pc.2 := by
  refine ⟨by decide, ⟨?_, ?_, ?_, ?_, trivial⟩, ?_⟩
  · exact shortFrame_admits rfl (by decide) (by decide)
  · exact shortFrame_admits rfl (by decide) (by decide)
  · exact shortFrame_admits rfl (by decide) (by decide)
  · exact shortFrame_admits rfl (by decide) (by decide)
  · intro h
    have hlast := h (shortFrame false 2 [], ⟨18, 18, 18, 0x300000012⟩) (by
      refine List.mem_of_getElem? (i := 3) ?_
      rfl)
    exact absurd (hlast.1 rfl) (by decide)

/-- The same counts with the clear on a frame at zero. -/
theorem picOrderCnt_type0_correct_clear_at_zero :
    let ps := [shortFrame true 0 [], shortFrame false 6 [], shortFrame false 0 [.clear],
      shortFrame false 2 []]
    ∀ pc ∈ ps.zip (runCounts PicOrder.reset ps), Correct pc.1 pc.2 := by
  refine picOrderCnt_type0_correct (g := ⟨0, 8⟩) PicOrder.reset (by decide) ⟨?_, ?_, ?_, ?_, trivial⟩ ?_
  · exact shortFrame_admits rfl (by decide) (by decide)
  · exact shortFrame_admits rfl (by decide) (by decide)
  · exact shortFrame_admits rfl (by decide) (by decide)
  · exact shortFrame_admits rfl (by decide) (by decide)
  · intro p hp hmmc hb
    simp only [List.mem_cons, List.not_mem_nil, or_false] at hp
    rcases hp with rfl | rfl | rfl | rfl
    · exact ⟨rfl, by decide⟩
    · exact absurd hmmc (by decide)
    · exact ⟨rfl, by decide⟩
    · exact absurd hmmc (by decide)

end Duckbox.H264
