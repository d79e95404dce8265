import Duckbox.FrameParser.PayloadBits
import Duckbox.H264.ParameterSetsAtomic
import Duckbox.H264.SliceHeaderBounds

/-!
# Slices of installed parameter sets

The counts of a picture parameter set are checked before it is installed, those that a slice
overrides them with are not. So in a table that the parameter set readers have filled the
weights of every set have their places (`readSets_placed`), and only an override can take
them away (`activeReferences_cases`). Of a payload in the anti-emulation buffer, the room of
a request is that of `Roomy` (`room_iff`).
-/

namespace Duckbox.H264.Coded

open Duckbox.Lib Duckbox.FrameParser
open Duckbox.Lib.Parse Duckbox.FrameParser.HeaderParser

/-! ## The counts of a set -/

/-- The weights of a set have their places. -/
def PictureParameterSetHeader.Placed (h : PictureParameterSetHeader) : Prop :=
  h.numRefIdxL0ActiveMinus1.toNat < maxRefIdxActive ∧
    h.numRefIdxL1ActiveMinus1.toNat < maxRefIdxActive

section Readers

variable {σ : Type} [BitSource σ]

/-- The counts are these. -/
def PictureParameterSetHeader.Counts (l0 l1 : Word) (h : PictureParameterSetHeader) : Prop :=
  h.numRefIdxL0ActiveMinus1 = l0 ∧ h.numRefIdxL1ActiveMinus1 = l1

theorem Pps.placed_of_readReferences {s t : HeaderState σ PictureParameterSetHeader SetMembers}
    (h : Yields Pps.readReferences s () t) : t.header.Placed := by
  obtain ⟨l0, s₁, -, h⟩ := yields_bind.mp h
  obtain ⟨_, s₂, h₂, h⟩ := yields_bind.mp h
  obtain rfl := yields_setHeader.mp h₂
  obtain ⟨l1, s₃, h₃, h⟩ := yields_bind.mp h
  obtain ⟨-, rfl⟩ := yields_take.mp h₃
  obtain ⟨_, s₄, h₄, h⟩ := yields_bind.mp h
  have hread : s₄.header.Counts l0 l1 := by
    obtain rfl := yields_setHeader.mp h₄
    exact ⟨rfl, rfl⟩
  have hkept : t.header.Counts l0 l1 := by
    let P (s : HeaderState σ PictureParameterSetHeader SetMembers) := s.header.Counts l0 l1
    refine Keeps.bind (P := P) ?_ (fun _ => ?_) s₄ () t hread h
    · exact keeps_read (P := PictureParameterSetHeader.Counts l0 l1) fun _ _ h => h
    · iterate 7
        refine Keeps.bind (P := P) ?_ fun _ => ?_
        · exact keeps_read (P := PictureParameterSetHeader.Counts l0 l1) fun _ _ h => h
      exact (Keeps.stop _).when _
  -- the check behind them
  iterate 8 obtain ⟨_, _, -, h⟩ := yields_bind.mp h
  cases hmany : decide (maxRefIdxActive ≤ l0.toNat) || decide (maxRefIdxActive ≤ l1.toNat) with
  | true =>
    rw [hmany] at h
    exact nomatch congrArg Prod.fst h
  | false =>
    obtain ⟨hl0, hl1⟩ := Bool.or_eq_false_iff.mp hmany
    unfold PictureParameterSetHeader.Placed
    rw [hkept.1, hkept.2]
    exact ⟨Nat.lt_of_not_le (of_decide_eq_false hl0), Nat.lt_of_not_le (of_decide_eq_false hl1)⟩

theorem Pps.keeps_readExtension :
    KeepsHeader PictureParameterSetHeader.Placed (Pps.readExtension : PpsParser σ Unit) := by
  refine Keeps.bind (keeps_setHeader fun _ h => h) fun _ => (keeps_take _).bind fun more => ?_
  refine Keeps.ite ((keeps_take _).bind fun transform => ?_) (Keeps.pure ())
  refine Keeps.bind (keeps_setHeader fun _ h => h) fun _ => (keeps_take _).bind fun matrix => ?_
  refine Keeps.bind (keeps_setHeader fun _ h => h) fun _ => Keeps.bind (Keeps.when _ ?_) fun _ => ?_
  · exact keeps_header.bind fun h => keeps_within fun _ _ h => h
  · exact keeps_read fun _ _ h => h

theorem Pps.placed_of_readBody {s t : HeaderState σ PictureParameterSetHeader SetMembers}
    (h : Yields Pps.readBody s () t) : t.header.Placed := by
  obtain ⟨_, s₁, -, h⟩ := yields_bind.mp h
  obtain ⟨_, s₂, -, h⟩ := yields_bind.mp h
  obtain ⟨_, s₃, -, h⟩ := yields_bind.mp h
  obtain ⟨_, s₄, hreferences, h⟩ := yields_bind.mp h
  exact Pps.keeps_readExtension s₄ () t (Pps.placed_of_readReferences hreferences) h

/-! ## The sets of a table -/

variable {n m : Nat} {pools : Pools n m}

/-- The weights of every set in the table have their places. -/
def ParameterSets.Placed (s : ParameterSets n m) : Prop :=
  ∀ i entry, s.pictureParameterSetTable i = some entry → entry.header.Placed

/-- A parameter set NAL. -/
inductive SetNal (σ : Type) where
  | sequence (bits : σ)
  | picture (bits : σ)

/-- Reading it; the members are whatever the last one left. -/
def ParameterSets.readSet (pools : Pools n m) (s : ParameterSets n m × SetMembers) :
    SetNal σ → Option (ParameterSets n m × SetMembers)
  | .sequence bits =>
    (readNalSequenceParameterSet pools s.1 bits s.2).map fun r => (r.sets, r.members)
  | .picture bits =>
    (readNalPictureParameterSet pools s.1 bits s.2).map fun r => (r.sets, r.members)

theorem ParameterSets.Placed.sequence {s : ParameterSets n m} {bits : σ} {members : SetMembers}
    {r : Returned σ n m} (hs : s.Placed)
    (h : readNalSequenceParameterSet pools s bits members = some r) : r.sets.Placed := by
  unfold ParameterSets.Placed
  rw [(readNalSequenceParameterSet_entries h).1]
  exact hs

theorem ParameterSets.Placed.picture {s : ParameterSets n m} {bits : σ} {members : SetMembers}
    {r : Returned σ n m} (hs : s.Placed)
    (h : readNalPictureParameterSet pools s bits members = some r) : r.sets.Placed := by
  intro i entry hentry
  rcases readNalPictureParameterSet_entries h hentry with hold | ⟨_, _, _, u, -, -, hbody, hnew⟩
  · exact hs i entry hold
  · rw [hnew]
    exact Pps.placed_of_readBody hbody

/-- Whatever is read, from empty tables or others of this kind on, the weights of every set
in the table have their places. -/
theorem readSets_placed (nals : List (SetNal σ)) : ∀ {s t : ParameterSets n m × SetMembers},
    s.1.Placed → nals.foldlM (ParameterSets.readSet pools) s = some t → t.1.Placed := by
  induction nals with
  | nil =>
    intro s t hs ht
    obtain rfl := Option.some.inj ht
    exact hs
  | cons nal nals ih =>
    intro s t hs ht
    rw [List.foldlM_cons] at ht
    obtain ⟨next, hnext, hrest⟩ := Option.bind_eq_some_iff.mp ht
    refine ih ?_ hrest
    cases nal with
    | sequence bits =>
      obtain ⟨r, hr, rfl⟩ := Option.map_eq_some_iff.mp hnext
      exact hs.sequence hr
    | picture bits =>
      obtain ⟨r, hr, rfl⟩ := Option.map_eq_some_iff.mp hnext
      exact hs.picture hr

/-! ## What can be out of its place -/

/-- A slice overrides the counts of its set. -/
def Overrides (type : Word) (s : σ) : Prop :=
  (u 1 (if sliceTypeIs type sliceTypeB then skip [u 1] s else s)).1 ≠ 0

/-- The references of a slice have their places in the weight tables, or it overrides them. -/
theorem activeReferences_cases {pps : PictureParameterSetHeader} (hpps : pps.Placed) (type : Word)
    (s : σ) : Overrides type s ∨ ((activeReferences pps type s).1.1.toNat < maxRefIdxActive ∧
      (activeReferences pps type s).1.2.toNat < maxRefIdxActive) := by
  unfold activeReferences Overrides
  dsimp only
  by_cases hlists : (sliceTypeIs type sliceTypeP || sliceTypeIs type sliceTypeSP ||
      sliceTypeIs type sliceTypeB) = true
  · rw [if_pos hlists]
    by_cases hoverride : (u 1 (if sliceTypeIs type sliceTypeB then skip [u 1] s else s)).1 = 0
    · rw [hoverride]
      exact .inr hpps
    · exact .inl hoverride
  · rw [if_neg hlists]
    exact .inr hpps

end Readers

/-! ## Room in the anti-emulation buffer -/

/-- The room of a request is that of what is kept, the places counted and the escapes. -/
theorem room_iff {memory : Nat → BitVec 8} {p : Payload} {size : Nat} {next : Payload → Prop}
    (h : AntiEmulation.Bounded memory p.buffer) :
    Room size next p ↔ AntiEmulation.Roomy p.source p.buffer size ∧
      ∀ q, BitSource.checkAntiEmulationBuffer size p = some q → next q := by
  rw [← Payload.checkAntiEmulationBuffer_isSome_iff h, Option.isSome_iff_exists]
  constructor
  · rintro ⟨q, hq, hnext⟩
    refine ⟨⟨q, hq⟩, fun q' hq' => ?_⟩
    obtain rfl := Option.some.inj (hq.symm.trans hq')
    exact hnext
  · rintro ⟨⟨q, hq⟩, hnext⟩
    exact ⟨q, hq, hnext q hq⟩

end Duckbox.H264.Coded
