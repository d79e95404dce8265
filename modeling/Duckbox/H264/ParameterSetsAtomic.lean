import Duckbox.BufferPool.ReferenceReturn
import Duckbox.H264.ParameterSets

/-!
# Parameter sets that are refused

Reading a parameter set that ends with an error should leave the tables as they
were and the buffer it obtained free. The returns in the second part of a reader
do so. Those in the first keep the buffer: reserved bits that are not 0, ids out
of range. Those behind the installation leave the refused set in its table. So a
reader leaves nothing behind exactly when it gets past the first part, and what
it installs passes the checks (`readNalSequenceParameterSet_atomic_iff`,
`readNalPictureParameterSet_atomic_iff`).
-/

namespace Duckbox.H264.Coded

open Duckbox.Lib Duckbox.FrameParser Duckbox.BufferPool
open Duckbox.Lib.Parse Duckbox.FrameParser.HeaderParser

variable {σ : Type} {n m : Nat} {pools : Pools n m}

/-! ## States and returns -/

/-- A buffer in a ring has no references, and a buffer in a table has one. -/
structure ParameterSets.Held (s : ParameterSets n m) : Prop where
  free : ∀ p, ∀ b ∈ (s.manager.pools p).freeBuffer.entries, (s.manager.buffers b).referenceCount = 0
  sequence : ∀ i entry, s.sequenceParameterSetTable i = some entry →
    (s.manager.buffers entry.buffer).referenceCount ≠ 0
  picture : ∀ i entry, s.pictureParameterSetTable i = some entry →
    (s.manager.buffers entry.buffer).referenceCount ≠ 0

/-- Tables whose buffers are held. -/
abbrev HeldSets (n m : Nat) := { s : ParameterSets n m // s.Held }

/-- If the call returned an error, the tables are those before it, and the buffer
it obtained has been released. -/
def Atomic (pool : Fin m) (s : ParameterSets n m) (r : Returned σ n m) : Prop :=
  ∀ e, r.result = .error e →
    (r.sets.sequenceParameterSetTable = s.sequenceParameterSetTable ∧
      r.sets.pictureParameterSetTable = s.pictureParameterSetTable) ∧
    ∀ b manager, s.manager.getBuffer pool = some (b, manager) →
      (r.sets.manager.buffers b).referenceCount = 0

/-! ## Buffers -/

namespace ParameterSets

variable (pools)

theorem decrementReferenceCount_returns (s : ParameterSets n m) (b : Fin n) :
    ∃ manager, s.manager.decrementReferenceCount pools.poolOf b = some manager ∧
      s.decrementReferenceCount pools b = some { s with manager := manager } := by
  obtain ⟨manager, h⟩ := s.manager.decrementReferenceCount_returns pools.poolOf b
  refine ⟨manager, h, ?_⟩
  unfold ParameterSets.decrementReferenceCount
  rw [h]
  rfl

theorem dropEntry_returns (s : ParameterSets n m) (entry : Option (Fin n)) :
    ∃ manager, s.dropEntry pools entry = some { s with manager := manager } := by
  cases entry with
  | none => exact ⟨s.manager, rfl⟩
  | some b =>
    obtain ⟨manager, -, h⟩ := decrementReferenceCount_returns pools s b
    exact ⟨manager, h⟩

theorem installSequence_eq (s : ParameterSets n m) (id : Fin maxSequenceParameterSets)
    (entry : SequenceEntry n) :
    ∃ manager, s.installSequence pools id entry =
      some { s with
        manager := manager
        sequenceParameterSetTable :=
          Function.update s.sequenceParameterSetTable id (some entry) } := by
  obtain ⟨manager, h⟩ := dropEntry_returns pools s
    ((s.sequenceParameterSetTable id).map (·.buffer))
  refine ⟨manager, ?_⟩
  unfold installSequence
  rw [h]
  rfl

theorem installPicture_eq (s : ParameterSets n m) (id : Fin maxPictureParameterSets)
    (entry : PictureEntry n) :
    ∃ manager, s.installPicture pools id entry =
      some { s with
        manager := manager
        pictureParameterSetTable :=
          Function.update s.pictureParameterSetTable id (some entry) } := by
  obtain ⟨manager, h⟩ := dropEntry_returns pools s
    ((s.pictureParameterSetTable id).map (·.buffer))
  refine ⟨manager, ?_⟩
  unfold installPicture
  rw [h]
  rfl

theorem installSequence_returns (s : ParameterSets n m) (id : Fin maxSequenceParameterSets)
    (entry : SequenceEntry n) :
    ∃ t, s.installSequence pools id entry = some t ∧
      t.sequenceParameterSetTable id = some entry := by
  obtain ⟨manager, h⟩ := installSequence_eq pools s id entry
  exact ⟨_, h, Function.update_self ..⟩

theorem installPicture_returns (s : ParameterSets n m) (id : Fin maxPictureParameterSets)
    (entry : PictureEntry n) :
    ∃ t, s.installPicture pools id entry = some t ∧
      t.pictureParameterSetTable id = some entry := by
  obtain ⟨manager, h⟩ := installPicture_eq pools s id entry
  exact ⟨_, h, Function.update_self ..⟩

end ParameterSets

/-! ## What a reader does -/

section Cases

variable [BitSource σ] {s : ParameterSets n m} {bits : σ} {members : SetMembers}
  {r : Returned σ n m}

omit [BitSource σ] in
theorem decrement_some {b : Fin n} {t : ParameterSets n m}
    (h : s.decrementReferenceCount pools b = some t) :
    ∃ manager, s.manager.decrementReferenceCount pools.poolOf b = some manager ∧
      t = { s with manager := manager } := by
  obtain ⟨manager, hmanager, rfl⟩ := Option.map_eq_some_iff.mp h
  exact ⟨manager, hmanager, rfl⟩

theorem readNalSequenceParameterSet_cases
    (h : readNalSequenceParameterSet pools s bits members = some r) :
    r.sets = s ∨ ∃ b manager,
      s.manager.getBuffer pools.sequenceParameterSetPool = some (b, manager) ∧
      (r.sets = { s with manager := manager } ∨
        (∃ manager', manager.decrementReferenceCount pools.poolOf b = some manager' ∧
          r.sets = { s with manager := manager' }) ∨
        ∃ t id u, Yields Sps.readProfile ⟨bits, Sps.defaultHeader, Sps.setDefaultMembers members⟩
            () t ∧ Yields Sps.readBody t id u ∧
          ({ s with manager := manager } : ParameterSets n m).installSequence pools id ⟨b, u.header⟩
            = some r.sets) := by
  unfold readNalSequenceParameterSet at h
  cases hget : s.manager.getBuffer pools.sequenceParameterSetPool with
  | none =>
    rw [hget] at h
    exact .inl (by rw [← Option.some.inj h])
  | some got =>
    obtain ⟨b, manager⟩ := got
    refine .inr ⟨b, manager, rfl, ?_⟩
    rw [hget] at h
    dsimp only at h
    split at h
    · exact .inl (by rw [← Option.some.inj h]; rfl)
    · next hprofile =>
      split at h
      · obtain ⟨t, ht, h⟩ := Option.bind_eq_some_iff.mp h
        obtain ⟨manager', hmanager', rfl⟩ := decrement_some ht
        exact .inr (.inl ⟨manager', hmanager', by rw [← Option.some.inj h]; rfl⟩)
      · next hbody =>
        obtain ⟨t, ht, h⟩ := Option.bind_eq_some_iff.mp h
        exact .inr (.inr ⟨_, _, _, hprofile, hbody, by rw [ht, ← Option.some.inj h]; rfl⟩)

theorem readNalPictureParameterSet_cases
    (h : readNalPictureParameterSet pools s bits members = some r) :
    r.sets = s ∨ ∃ b manager,
      s.manager.getBuffer pools.pictureParameterSetPool = some (b, manager) ∧
      (r.sets = { s with manager := manager } ∨
        (∃ manager', manager.decrementReferenceCount pools.poolOf b = some manager' ∧
          r.sets = { s with manager := manager' }) ∨
        ∃ id seqId sps t, Yields Pps.readIds ⟨bits, default, members⟩ (id, seqId) t ∧
          s.sequenceParameterSetTable seqId = some sps ∧
          ((∃ manager', (manager.attachBuffer pools.poolOf b sps.buffer).decrementReferenceCount
              pools.poolOf b = some manager' ∧ r.sets = { s with manager := manager' }) ∨
            ∃ u, Yields Pps.readBody (Pps.withSequence sps t) () u ∧
              ({ s with manager := manager.attachBuffer pools.poolOf b sps.buffer } :
                ParameterSets n m).installPicture pools id ⟨b, sps.buffer, u.header⟩
                = some r.sets)) := by
  unfold readNalPictureParameterSet at h
  cases hget : s.manager.getBuffer pools.pictureParameterSetPool with
  | none =>
    rw [hget] at h
    exact .inl (by rw [← Option.some.inj h])
  | some got =>
    obtain ⟨b, manager⟩ := got
    refine .inr ⟨b, manager, rfl, ?_⟩
    rw [hget] at h
    dsimp only at h
    split at h
    · exact .inl (by rw [← Option.some.inj h]; rfl)
    · next hids =>
      split at h
      · obtain ⟨t, ht, h⟩ := Option.bind_eq_some_iff.mp h
        obtain ⟨manager', hmanager', rfl⟩ := decrement_some ht
        exact .inr (.inl ⟨manager', hmanager', by rw [← Option.some.inj h]; rfl⟩)
      · next sps hsps =>
        refine .inr (.inr ⟨_, _, sps, _, hids, hsps, ?_⟩)
        split at h
        · obtain ⟨t, ht, h⟩ := Option.bind_eq_some_iff.mp h
          obtain ⟨manager', hmanager', rfl⟩ := decrement_some ht
          exact .inl ⟨manager', hmanager', by rw [← Option.some.inj h]; rfl⟩
        · next hbody =>
          obtain ⟨t, ht, h⟩ := Option.bind_eq_some_iff.mp h
          exact .inr ⟨_, hbody, by rw [ht, ← Option.some.inj h]; rfl⟩

/-- A sequence parameter set in the table has been there, or is the one that is read; the
other table stays. -/
theorem readNalSequenceParameterSet_entries
    (h : readNalSequenceParameterSet pools s bits members = some r) :
    r.sets.pictureParameterSetTable = s.pictureParameterSetTable ∧
      ∀ {id entry}, r.sets.sequenceParameterSetTable id = some entry →
        s.sequenceParameterSetTable id = some entry ∨
          ∃ t u, Yields Sps.readProfile ⟨bits, Sps.defaultHeader, Sps.setDefaultMembers members⟩
            () t ∧ Yields Sps.readBody t id u ∧ entry.header = u.header := by
  rcases readNalSequenceParameterSet_cases h with hsame | ⟨b, manager, -, hcases⟩
  · rw [hsame]
    exact ⟨rfl, fun hentry => .inl hentry⟩
  · rcases hcases with hkept | ⟨manager', -, hkept⟩ | ⟨t, id', u, hprofile, hbody, hinstall⟩
    · rw [hkept]
      exact ⟨rfl, fun hentry => .inl hentry⟩
    · rw [hkept]
      exact ⟨rfl, fun hentry => .inl hentry⟩
    · obtain ⟨manager', hinstalled⟩ := ParameterSets.installSequence_eq pools
        ({ s with manager := manager } : ParameterSets n m) id' ⟨b, u.header⟩
      rw [← Option.some.inj (hinstalled.symm.trans hinstall)]
      refine ⟨rfl, fun {id entry} hentry => ?_⟩
      dsimp only at hentry
      rcases eq_or_ne id id' with rfl | hne
      · rw [Function.update_self] at hentry
        obtain rfl := Option.some.inj hentry
        exact .inr ⟨t, u, hprofile, hbody, rfl⟩
      · rw [Function.update_of_ne hne] at hentry
        exact .inl hentry

theorem readNalPictureParameterSet_entries
    (h : readNalPictureParameterSet pools s bits members = some r) {id : Fin maxPictureParameterSets}
    {entry : PictureEntry n} (hentry : r.sets.pictureParameterSetTable id = some entry) :
    s.pictureParameterSetTable id = some entry ∨
      ∃ seqId sps t u, Yields Pps.readIds ⟨bits, default, members⟩ (id, seqId) t ∧
        s.sequenceParameterSetTable seqId = some sps ∧
          Yields Pps.readBody (Pps.withSequence sps t) () u ∧ entry.header = u.header := by
  rcases readNalPictureParameterSet_cases h with hsame | ⟨b, manager, -, hcases⟩
  · rw [hsame] at hentry
    exact .inl hentry
  · rcases hcases with hkept | ⟨manager', -, hkept⟩ | ⟨id', seqId, sps, t, hids, hsps, hcases⟩
    · rw [hkept] at hentry
      exact .inl hentry
    · rw [hkept] at hentry
      exact .inl hentry
    · rcases hcases with ⟨manager', -, hkept⟩ | ⟨u, hbody, hinstall⟩
      · rw [hkept] at hentry
        exact .inl hentry
      · obtain ⟨manager', hinstalled⟩ := ParameterSets.installPicture_eq pools
          ({ s with manager := manager.attachBuffer pools.poolOf b sps.buffer } : ParameterSets n m)
          id' ⟨b, sps.buffer, u.header⟩
        rw [← Option.some.inj (hinstalled.symm.trans hinstall)] at hentry
        dsimp only at hentry
        rcases eq_or_ne id id' with rfl | hne
        · rw [Function.update_self] at hentry
          obtain rfl := Option.some.inj hentry
          exact .inr ⟨seqId, sps, t, u, hids, hsps, hbody, rfl⟩
        · rw [Function.update_of_ne hne] at hentry
          exact .inl hentry

end Cases

/-! ## Returns -/

theorem Atomic.of_released {pool : Fin m} {s : ParameterSets n m} {r : Returned σ n m}
    (hsequence : r.sets.sequenceParameterSetTable = s.sequenceParameterSetTable)
    (hpicture : r.sets.pictureParameterSetTable = s.pictureParameterSetTable)
    {b : Fin n} {manager : Manager n m} (hget : s.manager.getBuffer pool = some (b, manager))
    (hreleased : (r.sets.manager.buffers b).referenceCount = 0) : Atomic pool s r := by
  refine fun _ _ => ⟨⟨hsequence, hpicture⟩, fun b' manager' hget' => ?_⟩
  obtain ⟨rfl, -⟩ := Prod.mk.inj (Option.some.inj (hget.symm.trans hget'))
  exact hreleased

theorem not_atomic_of_kept {pool : Fin m} {s : ParameterSets n m} {r : Returned σ n m}
    {e : ReadError} (hr : r.result = .error e) {b : Fin n} {manager : Manager n m}
    (hget : s.manager.getBuffer pool = some (b, manager))
    (hkept : (r.sets.manager.buffers b).referenceCount ≠ 0) : ¬ Atomic pool s r :=
  fun h => hkept ((h e hr).2 b manager hget)

theorem atomic_of_iff {H : Type} {pool : Fin m} {s t : ParameterSets n m}
    {p : Parse (HeaderState σ H SetMembers) Stop Unit} {u : HeaderState σ H SetMembers}
    (hchanged : ¬ (t.sequenceParameterSetTable = s.sequenceParameterSetTable ∧
      t.pictureParameterSetTable = s.pictureParameterSetTable)) :
    Atomic pool s (Returned.of t (p u)) ↔ ∃ v, Yields p u () v := by
  unfold Yields
  rcases p u with ⟨e | a, v⟩
  · refine iff_of_false (fun h => hchanged (h (.stop e) rfl).1) ?_
    rintro ⟨v', h⟩
    exact nomatch congrArg Prod.fst h
  · exact iff_of_true (fun e he => nomatch he) ⟨v, rfl⟩

/-! ## The checks -/

variable [BitSource σ]

/-- What the assertions behind the installation ask of a header. -/
def SequenceParameterSetHeader.InRange (h : SequenceParameterSetHeader) : Prop :=
  h.chromaFormatIdc ≤ 3 ∧ h.bitDepthLumaMinus8 ≤ 4 ∧ h.bitDepthChromaMinus8 ≤ 4 ∧
    h.log2MaxFrameNumMinus4 ≤ 12 ∧ h.picOrderCntType ≤ 2 ∧ h.log2MaxPicOrderCntLsbMinus4 ≤ 12 ∧
    h.numRefFramesInPicOrderCntCycle ≤ 255

def PictureParameterSetHeader.InRange (h : PictureParameterSetHeader) : Prop :=
  h.sliceGroupMapType ≤ 6 ∧ h.numRefIdxL0ActiveMinus1 ≤ 31 ∧ h.numRefIdxL1ActiveMinus1 ≤ 31 ∧
    h.weightedBipredIdc ≤ 2 ∧ h.picInitQpMinus26.toInt ≤ 25 ∧
    (-26 ≤ h.picInitQsMinus26.toInt ∧ h.picInitQsMinus26.toInt ≤ 25) ∧
    (-12 ≤ h.chromaQpIndexOffset.toInt ∧ h.chromaQpIndexOffset.toInt ≤ 12) ∧
    (-12 ≤ h.secondChromaQpIndexOffset.toInt ∧ h.secondChromaQpIndexOffset.toInt ≤ 12)

theorem Sps.checks_iff (s : HeaderState σ SequenceParameterSetHeader SetMembers) :
    (∃ t, Yields Sps.checks s () t) ↔
      BitSource.testAntiEmulationBuffer s.bits = true ∧ s.header.InRange := by
  simp only [Sps.checks, yields_bind, yields_setMembers, yields_assertAntiEmulationOk,
    yields_header, yields_assertThat, SequenceParameterSetHeader.InRange]
  simp

theorem Pps.checks_iff (s : HeaderState σ PictureParameterSetHeader SetMembers) :
    (∃ t, Yields Pps.checks s () t) ↔
      BitSource.testAntiEmulationBuffer s.bits = true ∧ s.header.InRange := by
  simp only [Pps.checks, yields_bind, yields_assertAntiEmulationOk, yields_header,
    yields_assertThat, PictureParameterSetHeader.InRange]
  simp

/-! ## Sequence parameter sets -/

/-- The reserved bits are 0, and if what follows is read to its end, it passes
the checks. -/
def Sps.InOrder (bits : σ) (members : SetMembers) : Prop :=
  ∃ t, Yields readProfile ⟨bits, defaultHeader, setDefaultMembers members⟩ () t ∧
    ∀ id u, Yields readBody t id u →
      BitSource.testAntiEmulationBuffer u.bits = true ∧ u.header.InRange

theorem readNalSequenceParameterSet_iff (pools : Pools n m) (s : HeldSets n m) (bits : σ)
    (members : SetMembers) :
    ∃ r, readNalSequenceParameterSet pools s.1 bits members = some r ∧
      (Atomic pools.sequenceParameterSetPool s.1 r ↔
        s.1.manager.getBuffer pools.sequenceParameterSetPool = none ∨
          Sps.InOrder bits members) := by
  obtain ⟨s, hs⟩ := s
  unfold readNalSequenceParameterSet
  cases hget : s.manager.getBuffer pools.sequenceParameterSetPool with
  | none =>
    refine ⟨_, rfl, iff_of_true (fun _ _ => ⟨⟨rfl, rfl⟩, fun b manager h => ?_⟩) (.inl rfl)⟩
    exact nomatch hget.symm.trans h
  | some got =>
    obtain ⟨b, manager⟩ := got
    obtain ⟨hfree, hfresh, -⟩ := Manager.getBuffer_some hget
    rw [or_iff_right (fun h => nomatch h)]
    dsimp only
    rcases hprofile : Sps.readProfile ⟨bits, Sps.defaultHeader, Sps.setDefaultMembers members⟩
      with ⟨e | _, t⟩
    · refine ⟨_, rfl, iff_of_false (not_atomic_of_kept rfl hget ?_) ?_⟩
      · show (manager.buffers b).referenceCount ≠ 0
        rw [hfresh.count]
        decide
      · rintro ⟨u, hu, -⟩
        exact nomatch congrArg Prod.fst (hprofile.symm.trans hu)
    · have hInOrder : Sps.InOrder bits members ↔ ∀ id u, Yields Sps.readBody t id u →
          BitSource.testAntiEmulationBuffer u.bits = true ∧ u.header.InRange := by
        refine ⟨?_, fun h => ⟨t, hprofile, h⟩⟩
        rintro ⟨t', ht', h⟩
        obtain ⟨-, rfl⟩ := Yields.inj hprofile ht'
        exact h
      rw [hInOrder]
      dsimp only
      rcases hbody : Sps.readBody t with ⟨e | id, u⟩
      · obtain ⟨manager', hmanager, hdrop⟩ := ParameterSets.decrementReferenceCount_returns
          pools { s with manager := manager } b
        dsimp only
        refine ⟨_, by rw [hdrop]; rfl, iff_of_true (.of_released rfl rfl hget ?_) ?_⟩
        · exact hfresh.released hmanager
        · intro id u' hu'
          exact nomatch congrArg Prod.fst (hbody.symm.trans hu')
      · obtain ⟨t', ht', hentry⟩ := ParameterSets.installSequence_returns pools
          { s with manager := manager } id ⟨b, u.header⟩
        dsimp only
        refine ⟨_, by rw [ht']; rfl, (atomic_of_iff fun hsame => ?_).trans ?_⟩
        · -- the entry is of a buffer that was free
          rw [hsame.1] at hentry
          exact hs.sequence id _ hentry (hs.free _ b hfree)
        · rw [Sps.checks_iff]
          refine ⟨fun h id' u' hu' => ?_, fun h => h id u hbody⟩
          obtain ⟨-, rfl⟩ := Yields.inj hbody hu'
          exact h

/-! ## Picture parameter sets -/

/-- The ids are in range, and if the sequence parameter set is there and what
follows is read to its end, it passes the checks. -/
def Pps.InOrder (s : ParameterSets n m) (bits : σ) (members : SetMembers) : Prop :=
  ∃ ids t, Yields readIds ⟨bits, default, members⟩ ids t ∧
    ∀ sps, s.sequenceParameterSetTable ids.2 = some sps →
      ∀ u, Yields readBody (withSequence sps t) () u →
        BitSource.testAntiEmulationBuffer u.bits = true ∧ u.header.InRange

theorem readNalPictureParameterSet_iff (pools : Pools n m) (s : HeldSets n m) (bits : σ)
    (members : SetMembers) :
    ∃ r, readNalPictureParameterSet pools s.1 bits members = some r ∧
      (Atomic pools.pictureParameterSetPool s.1 r ↔
        s.1.manager.getBuffer pools.pictureParameterSetPool = none ∨
          Pps.InOrder s.1 bits members) := by
  obtain ⟨s, hs⟩ := s
  unfold readNalPictureParameterSet
  cases hget : s.manager.getBuffer pools.pictureParameterSetPool with
  | none =>
    refine ⟨_, rfl, iff_of_true (fun _ _ => ⟨⟨rfl, rfl⟩, fun b manager h => ?_⟩) (.inl rfl)⟩
    exact nomatch hget.symm.trans h
  | some got =>
    obtain ⟨b, manager⟩ := got
    obtain ⟨hfree, hfresh, hothers⟩ := Manager.getBuffer_some hget
    rw [or_iff_right (fun h => nomatch h)]
    dsimp only
    rcases hids : (Pps.readIds ⟨bits, default, members⟩ : _ × HeaderState σ _ _)
      with ⟨e | ⟨picId, seqId⟩, t⟩
    · refine ⟨_, rfl, iff_of_false (not_atomic_of_kept rfl hget ?_) ?_⟩
      · show (manager.buffers b).referenceCount ≠ 0
        rw [hfresh.count]
        decide
      · rintro ⟨ids, u, hu, -⟩
        exact nomatch congrArg Prod.fst (hids.symm.trans hu)
    · have hInOrder : Pps.InOrder s bits members ↔
          ∀ sps, s.sequenceParameterSetTable seqId = some sps →
            ∀ u, Yields Pps.readBody (Pps.withSequence sps t) () u →
              BitSource.testAntiEmulationBuffer u.bits = true ∧ u.header.InRange := by
        refine ⟨?_, fun h => ⟨_, t, hids, h⟩⟩
        rintro ⟨ids, t', ht', h⟩
        obtain ⟨rfl, rfl⟩ := Yields.inj hids ht'
        exact h
      rw [hInOrder]
      dsimp only
      cases hsps : s.sequenceParameterSetTable seqId with
      | none =>
        obtain ⟨manager', hmanager, hdrop⟩ := ParameterSets.decrementReferenceCount_returns
          pools { s with manager := manager } b
        dsimp only
        refine ⟨_, by rw [hdrop]; rfl, iff_of_true (.of_released rfl rfl hget ?_) ?_⟩
        · exact hfresh.released hmanager
        · intro sps h
          exact nomatch h
      | some sps =>
        dsimp only
        simp only [Option.some.injEq, forall_eq']
        rcases hbody : Pps.readBody (Pps.withSequence sps t) with ⟨e | _, u⟩
        · obtain ⟨manager', hmanager, hdrop⟩ := ParameterSets.decrementReferenceCount_returns
            pools { s with manager := manager.attachBuffer pools.poolOf b sps.buffer } b
          dsimp only
          have hlive := hs.sequence seqId sps hsps
          have hne : sps.buffer ≠ b := by
            intro h
            rw [h] at hlive
            exact hlive (hs.free _ b hfree)
          refine ⟨_, by rw [hdrop]; rfl, iff_of_true
            (.of_released rfl rfl hget ?_) ?_⟩
          · refine hfresh.released_attached hne ?_ hmanager
            rw [hothers _ hne]
            exact hlive
          · intro u' hu'
            exact nomatch congrArg Prod.fst (hbody.symm.trans hu')
        · obtain ⟨t', ht', hentry⟩ := ParameterSets.installPicture_returns pools
            { s with manager := manager.attachBuffer pools.poolOf b sps.buffer } picId
            ⟨b, sps.buffer, u.header⟩
          dsimp only
          refine ⟨_, by rw [ht']; rfl,
            (atomic_of_iff fun hsame => ?_).trans ?_⟩
          · -- the entry is of a buffer that was free
            rw [hsame.2] at hentry
            exact hs.picture picId _ hentry (hs.free _ b hfree)
          · rw [Pps.checks_iff]
            refine ⟨fun h u' hu' => ?_, fun h => h u hbody⟩
            obtain ⟨-, rfl⟩ := Yields.inj hbody hu'
            exact h

/-! ## Both -/

/-- A buffer in either pool, and no parameter set yet. -/
def twoPools : Pools 2 2 := ⟨id, 0, 1⟩

def noSets : HeldSets 2 2 :=
  ⟨⟨Manager.created id, fun _ => none, fun _ => none⟩,
    { free := fun _ _ _ => rfl
      sequence := fun _ _ h => nomatch h
      picture := fun _ _ h => nomatch h }⟩

/-- `profile_idc` 66, no constraints, and a reserved bit that is not 0. -/
def reservedBits : BitList :=
  ⟨[false, true, false, false, false, false, true, false,
    false, false, false, false, false, false, false, true]⟩

end Duckbox.H264.Coded
