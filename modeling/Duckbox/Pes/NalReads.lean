import Duckbox.Pes.VideoWriters

/-!
# What the loop over the NALs reads

The loop gives a NAL up that ends behind the sample. But what it compares with the size
of the sample leaves out the length in front of the NAL, and is a sum of 32 bits, which
may wrap around. So the loop is followed only as long as it reads in the sample
(`checkedNals`).

> `nalReads_inside_iff`: the loop reads in the sample only, and ends, exactly if each
> length it comes to lies in the sample and is that of a NAL in it, or one whose
> excess is seen.

Where everything read is in the sample, each pass goes on, so that the loop ends
whenever it may be followed.
-/

namespace Duckbox.Pes

open Duckbox.Lib

namespace H264Writer

/-- The ranges a pass reads, each a place and a length. The pieces of a NAL lie one
behind the other. -/
def nalReads (data : Nat → Byte) (nalLengthBytes : Nat) (sampleSize : UInt) (s : Nals) :
    List (Nat × Nat) :=
  let nalLength := nalLength data s.videoPosition.toNat nalLengthBytes
  (s.videoPosition.toNat, nalLengthBytes) ::
    if sampleSize < s.nalStart + nalLength then []
    else [((s.videoPosition + BitVec.ofNat 32 nalLengthBytes).toNat, nalLength.toNat)]

/-- A range is empty or in the sample. -/
def Inside (sampleSize : Nat) (range : Nat × Nat) : Prop :=
  range.2 = 0 ∨ range.1 + range.2 ≤ sampleSize

instance (sampleSize : Nat) (range : Nat × Nat) : Decidable (Inside sampleSize range) :=
  inferInstanceAs (Decidable (_ ∨ _))

/-- The loop in a number of passes, `none` where they are too few or one reads outside of
the sample. -/
def checkedNals (data : Nat → Byte) (nalLengthBytes : Nat) (sampleSize : UInt) :
    Nat → Nals → Option Nals
  | 0, _ => none
  | nals + 1, s =>
    if ∀ range ∈ nalReads data nalLengthBytes sampleSize s, Inside sampleSize.toNat range then
      let s := writeNal data nalLengthBytes sampleSize s
      if s.nalStart < sampleSize then checkedNals data nalLengthBytes sampleSize nals s else some s
    else none

/-- From a place on, the loop reads in the sample only, and ends. -/
def ReadsInside (data : Nat → Byte) (nalLengthBytes : Nat) (sampleSize : UInt) (s : Nals) : Prop :=
  ∃ nals t, checkedNals data nalLengthBytes sampleSize nals s = some t

/-- Behind a NAL of a sample is another one. -/
def Follows (data : Nat → Byte) (nalLengthBytes sampleSize p q : Nat) : Prop :=
  q = p + nalLengthBytes + (nalLength data p nalLengthBytes).toNat ∧ q < sampleSize

/-- The length at a place is in the sample, and so is its NAL, or it is seen not to be. -/
def Held (data : Nat → Byte) (nalLengthBytes sampleSize p : Nat) : Prop :=
  p + nalLengthBytes ≤ sampleSize ∧
    (p + nalLengthBytes + (nalLength data p nalLengthBytes).toNat ≤ sampleSize ∨
      sampleSize < p + (nalLength data p nalLengthBytes).toNat ∧
        p + (nalLength data p nalLengthBytes).toNat < 2 ^ 32)

variable {data : Nat → Byte} {n : Nat} {sampleSize : UInt} {s : Nals} {p : Nat}

theorem readsInside_step : ReadsInside data n sampleSize s ↔
    (∀ range ∈ nalReads data n sampleSize s, Inside sampleSize.toNat range) ∧
      ((writeNal data n sampleSize s).nalStart < sampleSize →
        ReadsInside data n sampleSize (writeNal data n sampleSize s)) := by
  constructor
  · rintro ⟨nals, t, h⟩
    cases nals with
    | zero => exact nomatch h
    | succ nals =>
      unfold checkedNals at h
      by_cases hreads : ∀ range ∈ nalReads data n sampleSize s, Inside sampleSize.toNat range
      · rw [if_pos hreads] at h
        refine ⟨hreads, fun hgoes => ⟨nals, t, ?_⟩⟩
        dsimp only at h
        rwa [if_pos hgoes] at h
      · rw [if_neg hreads] at h
        exact nomatch h
  · rintro ⟨hreads, hrest⟩
    by_cases hgoes : (writeNal data n sampleSize s).nalStart < sampleSize
    · obtain ⟨nals, t, h⟩ := hrest hgoes
      refine ⟨nals + 1, t, ?_⟩
      unfold checkedNals
      rw [if_pos hreads]
      dsimp only
      rwa [if_pos hgoes]
    · refine ⟨1, writeNal data n sampleSize s, ?_⟩
      unfold checkedNals
      rw [if_pos hreads]
      dsimp only
      rw [if_neg hgoes]

/-- The loop is at a place of the sample. -/
def At (p : Nat) (s : Nals) : Prop := s.nalStart.toNat = p ∧ s.videoPosition.toNat = p

theorem nalReads_at (hat : At p s) :
    (∀ range ∈ nalReads data n sampleSize s, Inside sampleSize.toNat range) ↔
      (n = 0 ∨ p + n ≤ sampleSize.toNat) ∧
        (sampleSize.toNat < (p + (nalLength data p n).toNat) % 2 ^ 32 ∨
          (nalLength data p n).toNat = 0 ∨
          (p + n) % 2 ^ 32 + (nalLength data p n).toNat ≤ sampleSize.toNat) := by
  obtain ⟨hstart, hposition⟩ := hat
  have hcheck : sampleSize < s.nalStart + nalLength data p n ↔
      sampleSize.toNat < (p + (nalLength data p n).toNat) % 2 ^ 32 := by
    rw [BitVec.lt_def, BitVec.toNat_add, hstart]
  have hbehind : (s.videoPosition + BitVec.ofNat 32 n).toNat = (p + n) % 2 ^ 32 := by
    rw [BitVec.toNat_add, BitVec.toNat_ofNat, hposition, Nat.add_mod_mod]
  unfold nalReads
  rw [hposition, hbehind]
  dsimp only
  rw [List.forall_mem_cons]
  refine and_congr_right fun _ => ?_
  by_cases hlong : sampleSize < s.nalStart + nalLength data p n
  · rw [if_pos hlong]
    exact ⟨fun _ => .inl (hcheck.mp hlong), fun _ _ hmem => absurd hmem List.not_mem_nil⟩
  · rw [if_neg hlong, List.forall_mem_singleton]
    exact ⟨.inr, fun h => h.resolve_left fun hlt => hlong (hcheck.mpr hlt)⟩

theorem writeNal_at (hn : n ≤ 4) (hat : At p s)
    (hin : p + n + (nalLength data p n).toNat ≤ sampleSize.toNat) :
    At (p + n + (nalLength data p n).toNat) (writeNal data n sampleSize s) := by
  obtain ⟨hstart, hposition⟩ := hat
  have hsize := sampleSize.isLt
  have hshort : ¬ sampleSize < s.nalStart + nalLength data p n := by
    rw [BitVec.lt_def, BitVec.toNat_add, hstart]
    omega
  unfold writeNal
  rw [hposition]
  dsimp only
  rw [if_neg hshort]
  refine ⟨?_, ?_⟩
  · show (s.nalStart + (nalLength data p n + BitVec.ofNat 32 n)).toNat = _
    rw [BitVec.toNat_add, BitVec.toNat_add, BitVec.toNat_ofNat, hstart]
    omega
  · show (s.videoPosition + BitVec.ofNat 32 n + nalLength data p n).toNat = _
    rw [BitVec.toNat_add, BitVec.toNat_add, BitVec.toNat_ofNat, hposition]
    omega

theorem writeNal_long (hat : At p s)
    (hlong : sampleSize.toNat < (p + (nalLength data p n).toNat) % 2 ^ 32) :
    (writeNal data n sampleSize s).nalStart = sampleSize := by
  obtain ⟨hstart, hposition⟩ := hat
  have hcheck : sampleSize < s.nalStart + nalLength data p n := by
    rwa [BitVec.lt_def, BitVec.toNat_add, hstart]
  unfold writeNal
  rw [hposition]
  dsimp only
  rw [if_pos hcheck]

theorem readsInside_at (hn : 1 ≤ n ∧ n ≤ 4) (hat : At p s) (hp : p ≤ sampleSize.toNat) :
    ReadsInside data n sampleSize s ↔ ∀ q,
      Relation.ReflTransGen (Follows data n sampleSize.toNat) p q →
        Held data n sampleSize.toNat q := by
  have hsize := sampleSize.isLt
  induction hleft : sampleSize.toNat - p using Nat.strong_induction_on generalizing p s with
  | _ left ih =>
  rw [readsInside_step, nalReads_at hat]
  by_cases hin : p + n + (nalLength data p n).toNat ≤ sampleSize.toNat
  · -- the NAL is in the sample, and what remains is shorter
    have hnext := writeNal_at hn.2 hat hin
    have hgoes : (writeNal data n sampleSize s).nalStart < sampleSize ↔
        p + n + (nalLength data p n).toNat < sampleSize.toNat := by
      rw [BitVec.lt_def, hnext.1]
    have hrest : ReadsInside data n sampleSize (writeNal data n sampleSize s) ↔ ∀ q,
        Relation.ReflTransGen (Follows data n sampleSize.toNat)
          (p + n + (nalLength data p n).toNat) q → Held data n sampleSize.toNat q :=
      ih _ (by omega) hnext hin rfl
    rw [hgoes, hrest]
    constructor
    · rintro ⟨-, hrest⟩ q hq
      rcases Relation.ReflTransGen.cases_head hq with rfl | ⟨r, ⟨rfl, hlt⟩, hq⟩
      · exact ⟨by omega, .inl hin⟩
      · exact hrest hlt q hq
    · intro h
      refine ⟨by omega, fun hlt q hq => h q (.head ⟨rfl, hlt⟩ hq)⟩
  · constructor
    · -- nothing can follow, and what is read of it is in the sample
      rintro ⟨hreads, -⟩ q hq
      rcases Relation.ReflTransGen.cases_head hq with rfl | ⟨r, ⟨rfl, hlt⟩, hq⟩
      · exact ⟨by omega, .inr (by omega)⟩
      · omega
    · intro h
      have hheld := h p .refl
      unfold Held at hheld
      refine ⟨by omega, fun hgoes => ?_⟩
      rw [writeNal_long hat (by omega)] at hgoes
      exact absurd hgoes (BitVec.lt_irrefl _)

/-- The loop over the NALs of a sample reads in it only, and ends, exactly if each length it
comes to is in the sample, and so is its NAL, or the sum that is compared is larger than
the sample and does not wrap around. -/
theorem nalReads_inside_iff (data : Nat → Byte) (nalLengthBytes : Nat) (sampleSize : UInt)
    (pts : BitVec 64) (packets : List (List Byte))
    (hbytes : 1 ≤ nalLengthBytes ∧ nalLengthBytes ≤ 4) :
    ReadsInside data nalLengthBytes sampleSize ⟨0, 0, pts, packets⟩ ↔
      ∀ p, Relation.ReflTransGen (Follows data nalLengthBytes sampleSize.toNat) 0 p →
        Held data nalLengthBytes sampleSize.toNat p :=
  readsInside_at hbytes ⟨rfl, rfl⟩ (Nat.zero_le _)

/-- A sample that is one NAL. -/
theorem nalReads_inside_single :
    ReadsInside (fun i => [0, 0, 0, 1, 0x65].getD i 0) 4 5 ⟨0, 0, 0, []⟩ := by
  refine (nalReads_inside_iff _ 4 5 0 [] (by decide)).mpr fun p hp => ?_
  rcases Relation.ReflTransGen.cases_head hp with rfl | ⟨q, ⟨rfl, hlt⟩, -⟩
  · exact ⟨by decide, .inl (by decide)⟩
  · exact absurd hlt (by decide)

/-- A NAL said to be of five bytes, of which two are there. -/
theorem nalReads_cut_short :
    ¬ ReadsInside (fun i => [0, 0, 0, 5, 0x65, 0x88].getD i 0) 4 6 ⟨0, 0, 0, []⟩ := by
  intro h
  exact absurd (readsInside_step.mp h).1 (by decide)

end H264Writer

end Duckbox.Pes
