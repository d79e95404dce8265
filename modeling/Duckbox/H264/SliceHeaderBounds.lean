import Duckbox.H264.SliceHeaderReader
import Duckbox.H264.SliceHeaderSyntax

/-!
# Array accesses of slice header reading

What a slice codes decides whether reading its header stays inside of every array.
`Assert( inrange( id, 0, 256 ) )` lets 256 through to a table of 256 picture parameter
sets, the weights are read for as many references as an override says, which is checked
at the end of the header only, and no request looks whether the bytes it copies fit. All
other accesses are in bounds: the counted loops end at the size of the array they fill.

> `readNalSliceHeader_withinBounds_iff`: for any bits, members and parameter sets, nothing
> is accessed past its end exactly if the slice is as `WithinBounds` asks.

The proof goes along the parts of the reader. Each leaves the bits where the syntax says,
and of the header what the rest of the syntax depends on (`SliceHeader.core`).
-/

namespace Duckbox.H264.Coded

open Duckbox.Lib Duckbox.FrameParser
open Duckbox.Lib.Parse Duckbox.FrameParser.HeaderParser

variable {σ : Type} [BitSource σ]

/-! ## What the rest depends on -/

/-- The members of a slice header that say what follows. -/
structure SliceCore where
  pictureParameterSet : PictureParameterSetHeader
  sliceType : Word
  nalUnitType : Word
  nalRefIdc : Word
  fieldPicFlag : Word
  numRefIdxActiveOverrideFlag : Word
  active : Word × Word
  denoms : Word × Word

def SliceHeader.core (h : SliceHeader) : SliceCore where
  pictureParameterSet := h.pictureParameterSet
  sliceType := h.sliceType
  nalUnitType := h.nalUnitType
  nalRefIdc := h.nalRefIdc
  fieldPicFlag := h.fieldPicFlag
  numRefIdxActiveOverrideFlag := h.numRefIdxActiveOverrideFlag
  active := (h.numRefIdxL0ActiveMinus1, h.numRefIdxL1ActiveMinus1)
  denoms := (h.predWeightTable.lumaLog2WeightDenom, h.predWeightTable.chromaLog2WeightDenom)

/-- A reader leaves these bits, and what the rest depends on. -/
abbrev SliceLeaves {A : Type} (p : SliceParser σ A) (s : SliceState σ) (a : A) (bits : σ)
    (core : SliceCore) : Prop :=
  Leaves SliceHeader.core p s a bits core

variable {s : SliceState σ} {Q : Unit → SliceState σ → Prop} {next : σ → Prop}

/-- What follows depends on the bits only, as long as the core is that of the state. -/
def Follows (core : SliceCore) (Q : Unit → SliceState σ → Prop) (next : σ → Prop) : Prop :=
  ∀ t : SliceState σ, t.header.core = core → (Q () t ↔ next t.bits)

/-! ## Requests and checks -/

variable {core : SliceCore}

theorem wp_checkAntiEmulationBuffer {size : Nat} (hs : s.header.core = core)
    (hQ : Follows core Q next) :
    wp .outOfBounds (checkAntiEmulationBuffer size) Q s ↔ Room size next s.bits := by
  unfold wp checkAntiEmulationBuffer Room
  cases BitSource.checkAntiEmulationBuffer size s.bits with
  | none => exact iff_of_false (fun h => h rfl) fun ⟨t, ht, _⟩ => nomatch ht
  | some bits =>
    refine (hQ ⟨bits, s.header, s.members⟩ hs).trans ⟨fun h => ⟨bits, rfl, h⟩, ?_⟩
    rintro ⟨t, ht, h⟩
    obtain rfl := Option.some.inj ht
    exact h

omit [BitSource σ] in
theorem wp_assertThat {c : Bool} : wp .outOfBounds (assertThat c) Q s ↔ (c = true → Q () s) := by
  cases c with
  | false => exact iff_of_true (fun h => nomatch h) fun h => nomatch h
  | true => exact ⟨fun h _ => h, fun h => h rfl⟩

theorem wp_assertAntiEmulationOk (hs : s.header.core = core) (hQ : Follows core Q next) :
    wp .outOfBounds assertAntiEmulationOk Q s ↔ Tested next s.bits := by
  unfold wp assertAntiEmulationOk Tested
  cases BitSource.testAntiEmulationBuffer s.bits with
  | false => exact iff_of_true (fun h => nomatch h) fun h => nomatch h
  | true => exact (hQ _ hs).trans ⟨fun h _ => h, fun h => h rfl⟩

/-! ## Commands -/

/-- A pass of a loop over commands reads one. -/
structure ReadsCommand (last : Word) (arguments : Word → Option Nat) (body : SliceParser σ Bool)
    (s : SliceState σ) : Prop where
  ends : (ue s.bits).1 = last → SliceLeaves body s true (ue s.bits).2 s.header.core
  reads : (ue s.bits).1 ≠ last → ∀ n, arguments (ue s.bits).1 = some n →
    SliceLeaves body s false (skip (List.replicate n ue) (ue s.bits).2) s.header.core
  refuses : (ue s.bits).1 ≠ last → arguments (ue s.bits).1 = none →
    Stops body s (.status .error)

theorem wp_commands {last : Word} {arguments : Word → Option Nat} {body : Nat → SliceParser σ Bool}
    {most passes : Nat} (hbody : ∀ i < most, ∀ s, ReadsCommand last arguments (body i) s)
    (hQ : Follows core Q next) :
    ∀ {i : Nat} {s : SliceState σ}, i + passes = most → s.header.core = core →
      (wp .outOfBounds (forBreak body passes i)
          (fun ended => wp .outOfBounds (assertThat ended) Q) s ↔
        ∀ e, commandsEnd last arguments passes s.bits = some e → next e) := by
  induction passes with
  | zero =>
    intro i s _ _
    exact iff_of_true (show wp _ (assertThat false) Q s from wp_assertThat.mpr fun h => nomatch h)
      fun e h => nomatch h
  | succ passes ih =>
    intro i s hi hs
    have hreads := hbody i (by omega) s
    unfold forBreak commandsEnd
    rw [wp_bind]
    dsimp only
    by_cases hlast : (ue s.bits).1 = last
    · rw [if_pos hlast]
      refine (hreads.ends hlast).wp_iff fun h m hh => ?_
      show wp .outOfBounds (assertThat true) Q _ ↔ _
      rw [wp_assertThat, hQ _ (hh.trans hs)]
      exact ⟨fun hnext e he => Option.some.inj he ▸ hnext rfl, fun hnext _ => hnext _ rfl⟩
    · rw [if_neg hlast]
      cases harguments : arguments (ue s.bits).1 with
      | none =>
        have hstop := hreads.refuses hlast harguments
        refine iff_of_true ?_ fun e h => nomatch h
        unfold wp
        rw [show body i s = (.error (.status .error), (body i s).2) from Prod.ext hstop rfl]
        exact fun h => nomatch h
      | some n =>
        refine (hreads.reads hlast n harguments).wp_iff fun h m hh => ?_
        rw [if_neg Bool.false_ne_true]
        exact ih (by omega) (hh.trans hs)

/-- The readers of both kinds of commands. -/
theorem wp_readCommands {size : Nat} {last : Word} {arguments : Word → Option Nat}
    {body : Nat → SliceParser σ Bool} {most : Nat} {set : Word → SliceHeader → SliceHeader}
    (hset : ∀ v h, (set v h).core = h.core)
    (hbody : ∀ i < most, ∀ s, ReadsCommand last arguments (body i) s) (hs : s.header.core = core)
    (hQ : Follows core Q next) :
    wp .outOfBounds (do
      let flag ← take (u 1)
      setHeader (set flag)
      when (flag != 0) do
        checkAntiEmulationBuffer size
        let ended ← forBreak body most 0
        assertThat ended) Q s ↔ CommandsFit size last arguments most next s.bits := by
  unfold CommandsFit
  show wp Stop.outOfBounds (when ((u 1 s.bits).1 != 0) _ : SliceParser σ Unit) Q
    ⟨(u 1 s.bits).2, set (u 1 s.bits).1 s.header, s.members⟩ ↔ _
  have hcore : (set (u 1 s.bits).1 s.header).core = core := (hset _ _).trans hs
  dsimp only
  by_cases hflag : (u 1 s.bits).1 = 0
  · rw [if_pos hflag, hflag]
    rw [hflag] at hcore
    exact hQ _ hcore
  · rw [if_neg hflag, bne_iff_ne.mpr hflag]
    show wp Stop.outOfBounds (checkAntiEmulationBuffer size >>= fun _ => forBreak body most 0 >>=
      fun ended => assertThat ended : SliceParser σ Unit) Q _ ↔ _
    rw [wp_bind]
    refine wp_checkAntiEmulationBuffer hcore fun t ht => ?_
    rw [wp_bind]
    exact wp_commands hbody hQ (Nat.zero_add _) ht

/-- An argument of a command. -/
theorem leaves_argument {n : Nat} {array : Member SliceHeader (Vector Word n)}
    (harray : ∀ v h, (array.set v h).core = h.core) {i : Nat} (hi : i < n) (s : SliceState σ) :
    SliceLeaves (readInto ue array i) s () (ue s.bits).2 s.header.core :=
  leaves_readInto hi fun v => harray v s.header

theorem reorderingPass_reads (list : Member SliceHeader ReorderingCommands)
    (hlist : ∀ c h, (list.set c h).core = h.core) {i : Nat} (hi : i < maxRefPicReorderOperations)
    (s : SliceState σ) : ReadsCommand 3 reorderingArguments (reorderingPass list i) s := by
  have hread : SliceLeaves (readAt ue (list.comp ReorderingCommands.idc) i) s (ue s.bits).1
      (ue s.bits).2 s.header.core := leaves_readAt hi fun v => hlist _ _
  have hargument : ∀ array (t : SliceState σ), SliceLeaves (readInto ue (list.comp array) i) t ()
      (ue t.bits).2 t.header.core := fun array t => leaves_argument (fun v h => hlist _ h) hi t
  constructor
  · intro hlast
    refine hread.bind fun h m hh => ?_
    rw [hlast]
    exact leaves_pure true hh
  · intro _ n hn
    unfold reorderingArguments at hn
    split at hn
    · next hle =>
      obtain rfl := Option.some.inj hn
      refine hread.bind fun h m hh => ?_
      have hcases : (ue s.bits).1 = 0 ∨ (ue s.bits).1 = 1 ∨ (ue s.bits).1 = 2 := by bv_omega
      rcases hcases with hidc | hidc | hidc
      · rw [hidc, ← hh]
        exact (hargument _ _).bind fun h m hh => leaves_pure false hh
      · rw [hidc, ← hh]
        exact (hargument _ _).bind fun h m hh => leaves_pure false hh
      · rw [hidc, ← hh]
        exact (hargument _ _).bind fun h m hh => leaves_pure false hh
    · cases hn
  · intro hlast hnone
    obtain ⟨h, m, hy, -⟩ := hread
    refine (stops_after hy).mpr (stops_bind.mpr (.inl ?_))
    have hmany : decide ((ue s.bits).1 ≤ 3) = false := by
      refine decide_eq_false fun hle => ?_
      unfold reorderingArguments at hnone
      rw [if_pos (by bv_omega)] at hnone
      cases hnone
    rw [hmany]
    rfl

theorem markingPass_reads {i : Nat} (hi : i < maxMemoryManagementOperations) (s : SliceState σ) :
    ReadsCommand 0 markingArguments (markingPass i) s := by
  have hread : SliceLeaves (readAt ue (marking.comp ⟨(·.memoryManagementControlOperation),
      fun v m => { m with memoryManagementControlOperation := v }⟩) i) s (ue s.bits).1
        (ue s.bits).2 s.header.core := leaves_readAt hi fun v => rfl
  have hargument : ∀ array (t : SliceState σ), SliceLeaves (readInto ue (marking.comp array) i) t ()
      (ue t.bits).2 t.header.core := fun array t => leaves_argument (fun v h => rfl) hi t
  constructor
  · intro hlast
    refine hread.bind fun h m hh => ?_
    rw [hlast]
    exact leaves_pure true hh
  · intro hlast n hn
    unfold markingArguments at hn
    split at hn
    · next hle =>
      obtain rfl := Option.some.inj hn
      refine hread.bind fun h m hh => ?_
      have hcases : (ue s.bits).1 = 1 ∨ (ue s.bits).1 = 2 ∨ (ue s.bits).1 = 3 ∨
          (ue s.bits).1 = 4 ∨ (ue s.bits).1 = 5 ∨ (ue s.bits).1 = 6 := by bv_omega
      rcases hcases with hop | hop | hop | hop | hop | hop
      · rw [hop, ← hh]
        exact (hargument _ _).bind fun h m hh => leaves_pure false hh
      · rw [hop, ← hh]
        exact (hargument _ _).bind fun h m hh => leaves_pure false hh
      · rw [hop, ← hh]
        refine (hargument _ _).bind fun h m hh => ?_
        rw [← hh]
        exact (hargument _ _).bind fun h m hh => leaves_pure false hh
      · rw [hop, ← hh]
        exact (hargument _ _).bind fun h m hh => leaves_pure false hh
      · rw [hop]
        exact leaves_pure false hh
      · rw [hop, ← hh]
        exact (hargument _ _).bind fun h m hh => leaves_pure false hh
    · cases hn
  · intro hlast hnone
    obtain ⟨h, m, hy, -⟩ := hread
    refine (stops_after hy).mpr (stops_bind.mpr (.inl ?_))
    have hmany : decide ((ue s.bits).1 ≤ 6) = false := by
      refine decide_eq_false fun hle => ?_
      unfold markingArguments at hnone
      rw [if_pos hle] at hnone
      cases hnone
    rw [hmany]
    rfl

theorem wp_readRefPicListReordering (hQ : Follows core Q next) :
    Follows core (fun _ => wp .outOfBounds readRefPicListReordering Q)
      (ReorderingFits core.sliceType next) := by
  intro s hs
  obtain rfl := hs
  have hlist : ∀ (list : Member SliceHeader ReorderingCommands), (∀ c h, (list.set c h).core = h.core) →
      ∀ {Q : Unit → SliceState σ → Prop} {next : σ → Prop}, Follows s.header.core Q next →
        Follows s.header.core (fun _ => wp .outOfBounds (readReorderingCommands list) Q)
          (CommandsFit 128 3 reorderingArguments maxRefPicReorderOperations next) :=
    fun list hlist Q next hQ t ht => wp_readCommands (fun _ _ => hlist _ _)
      (fun _ hi t => reorderingPass_reads list hlist hi t) ht hQ
  have htested : Follows s.header.core (fun _ => wp .outOfBounds assertAntiEmulationOk Q)
      (Tested next) := fun t ht => wp_assertAntiEmulationOk ht hQ
  -- the second list, then the first
  have hsecond : Follows s.header.core
      (fun _ => wp .outOfBounds (do
        when (sliceTypeIs s.header.sliceType sliceTypeB) (readReorderingCommands reorderingL1)
        assertAntiEmulationOk) Q)
      (if sliceTypeIs s.header.sliceType sliceTypeB then
        CommandsFit 128 3 reorderingArguments maxRefPicReorderOperations (Tested next)
      else Tested next) := by
    intro t ht
    refine wp_bind.trans ?_
    cases sliceTypeIs s.header.sliceType sliceTypeB with
    | false => exact htested t ht
    | true => exact hlist reorderingL1 (fun _ _ => rfl) htested t ht
  show wp Stop.outOfBounds (when (!sliceTypeIs s.header.sliceType sliceTypeI &&
      !sliceTypeIs s.header.sliceType sliceTypeSI) (readReorderingCommands reorderingL0) >>=
    fun _ => when (sliceTypeIs s.header.sliceType sliceTypeB)
      (readReorderingCommands reorderingL1) >>= fun _ => assertAntiEmulationOk) Q s ↔ _
  unfold ReorderingFits
  rw [wp_bind]
  show _ ↔ (if !sliceTypeIs s.header.sliceType sliceTypeI &&
    !sliceTypeIs s.header.sliceType sliceTypeSI then _ else _)
  cases !sliceTypeIs s.header.sliceType sliceTypeI && !sliceTypeIs s.header.sliceType sliceTypeSI with
  | false => exact hsecond s rfl
  | true => exact hlist reorderingL0 (fun _ _ => rfl) hsecond s rfl

theorem wp_readDecRefPicMarking (hQ : Follows core Q next) :
    Follows core (fun _ => wp .outOfBounds readDecRefPicMarking Q)
      (MarkingFits core.nalUnitType next) := by
  intro s hs
  obtain rfl := hs
  have htested : Follows s.header.core (fun _ => wp .outOfBounds assertAntiEmulationOk Q)
      (Tested next) := fun t ht => wp_assertAntiEmulationOk ht hQ
  show wp Stop.outOfBounds (if s.header.nalUnitType == naluTypeIdr then _ else _) Q s ↔ _
  unfold MarkingFits
  by_cases hidr : s.header.nalUnitType = naluTypeIdr
  · rw [if_pos (beq_iff_eq.mpr hidr), if_pos (show s.header.core.nalUnitType = _ from hidr)]
    exact htested ⟨skip [u 1, u 1] s.bits, _, s.members⟩ rfl
  · rw [if_neg (mt beq_iff_eq.mp hidr), if_neg (show s.header.core.nalUnitType ≠ _ from hidr)]
    show wp Stop.outOfBounds ((do
      let flag ← take (u 1)
      setHeader fun h => { h with
        decRefPicMarking := { h.decRefPicMarking with adaptiveRefPicMarkingModeFlag := flag } }
      when (flag != 0) do
        checkAntiEmulationBuffer 64
        let ended ← forBreak markingPass maxMemoryManagementOperations 0
        assertThat ended : SliceParser σ Unit) >>= fun _ => assertAntiEmulationOk) Q s ↔ _
    rw [wp_bind]
    exact wp_readCommands (fun _ _ => rfl) (fun _ hi t => markingPass_reads hi t) rfl htested

/-! ## Weights -/

theorem leaves_weightsPass (list : Member SliceHeader PredWeights)
    (hlist : ∀ w h, (list.set w h).core = h.core) (chromaFormatIdc : Word) {i : Nat}
    (hi : i < maxRefIdxActive) (s : SliceState σ) :
    SliceLeaves (weightsPass list chromaFormatIdc i) s () (weightEnd chromaFormatIdc s.bits)
      s.header.core := by
  have hflag : ∀ (array : Member PredWeights (Vector Word maxRefIdxActive)) (t : SliceState σ),
      SliceLeaves (readAt (u 1) (list.comp array) i) t (u 1 t.bits).1 (u 1 t.bits).2
        t.header.core := fun array t => leaves_readAt hi fun v => hlist _ _
  have hweight : ∀ (array : Member PredWeights (Vector Word maxRefIdxActive)) (t : SliceState σ),
      SliceLeaves (readInto se (list.comp array) i) t () (se t.bits).2 t.header.core :=
    fun array t => leaves_readInto hi fun v => hlist _ _
  refine (hflag _ s).bind fun h m hh => ?_
  rw [← hh]
  refine Leaves.bind (Leaves.when (show SliceLeaves _ _ () (skip [se, se] (u 1 s.bits).2) _ from
    (hweight _ _).bind fun h m hh => ?_) rfl) fun h m hh => ?_
  · rw [← hh]
    exact hweight _ _
  rw [← hh]
  refine Leaves.when ((hflag _ _).bind fun h m hh => ?_) rfl
  rw [← hh]
  refine Leaves.when ((hweight _ _).bind fun h m hh => ?_) rfl
  rw [← hh]
  refine (hweight _ _).bind fun h m hh => ?_
  rw [← hh]
  refine (hweight _ _).bind fun h m hh => ?_
  rw [← hh]
  exact hweight _ _

theorem leaves_weights (list : Member SliceHeader PredWeights)
    (hlist : ∀ w h, (list.set w h).core = h.core) (chromaFormatIdc : Word) {passes : Nat} :
    ∀ {i : Nat} (s : SliceState σ), i + passes ≤ maxRefIdxActive →
      SliceLeaves (forFrom (weightsPass list chromaFormatIdc) passes i) s ()
        ((weightEnd chromaFormatIdc)^[passes] s.bits) s.header.core := by
  induction passes with
  | zero => exact fun s _ => leaves_pure () rfl
  | succ passes ih =>
    intro i s hi
    refine (leaves_weightsPass list hlist chromaFormatIdc (by omega) s).bind fun h m hh => ?_
    rw [← hh]
    exact ih ⟨weightEnd chromaFormatIdc s.bits, h, m⟩ (by omega)

/-- The loop stores behind the weights where there are more references than places. -/
theorem stops_weights (list : Member SliceHeader PredWeights)
    (hlist : ∀ w h, (list.set w h).core = h.core) (chromaFormatIdc : Word) {passes : Nat}
    (hpasses : maxRefIdxActive < passes) (s : SliceState σ) :
    Stops (forFrom (weightsPass list chromaFormatIdc) passes 0) s .outOfBounds := by
  refine stops_forFrom (n := maxRefIdxActive) (fun j hj t => ?_) (fun t => ?_) (Nat.zero_le _)
    (by omega)
  · obtain ⟨h, m, hy, -⟩ := leaves_weightsPass list hlist chromaFormatIdc hj t
    exact ⟨(), _, hy⟩
  · exact stops_bind.mpr (.inl (stops_readAt _ _ (Nat.lt_irrefl _) t))

theorem wp_readWeights (list : Member SliceHeader PredWeights)
    (hlist : ∀ w h, (list.set w h).core = h.core) (chromaFormatIdc active : Word)
    (hQ : Follows core Q next) :
    Follows core (fun _ => wp .outOfBounds (readWeights list chromaFormatIdc active) Q)
      (WeightsFit chromaFormatIdc active next) := by
  intro s hs
  refine wp_bind.trans (wp_checkAntiEmulationBuffer hs fun t ht => ?_)
  by_cases hactive : active.toNat < maxRefIdxActive
  · rw [and_iff_right hactive]
    refine (leaves_weights list hlist chromaFormatIdc t (by omega)).wp_iff fun h m hh => ?_
    exact hQ _ (hh.trans ht)
  · exact iff_of_false (stops_weights list hlist chromaFormatIdc (by omega) t).not_wp
      fun h => hactive h.1

theorem leaves_readWeightDenoms (chromaFormatIdc : Word) (s : SliceState σ)
    (hdenom : s.header.predWeightTable.chromaLog2WeightDenom = 0) :
    let luma := ue s.bits
    let chroma := if chromaFormatIdc != 0 then ue luma.2 else (0, luma.2)
    SliceLeaves (readWeightDenoms chromaFormatIdc) s () chroma.2
      { s.header.core with denoms := (luma.1, chroma.1) } := by
  dsimp only
  refine (leaves_read (b := { s.header.core with denoms := ((ue s.bits).1, 0) }) ?_).bind
    fun h m hh => ?_
  · show { s.header.core with
      denoms := ((ue s.bits).1, s.header.predWeightTable.chromaLog2WeightDenom) } = _
    rw [hdenom]
  · cases chromaFormatIdc != 0 with
    | false => exact leaves_pure () hh
    | true =>
      refine leaves_read ?_
      show { h.core with denoms := (h.core.denoms.1, (ue (ue s.bits).2).1) } = _
      rw [hh]
      rfl

theorem wp_checkPredWeightTable (hQ : Follows core Q next) :
    Follows core (fun _ => wp .outOfBounds checkPredWeightTable Q)
      (Tested fun t => core.denoms.1 ≤ 7 → core.denoms.2 ≤ 7 → next t) := by
  intro s hs
  refine wp_bind.trans (wp_assertAntiEmulationOk hs fun t ht => ?_)
  show wp Stop.outOfBounds (assertThat (decide (t.header.core.denoms.1 ≤ 7)) >>= fun _ =>
    assertThat (decide (t.header.core.denoms.2 ≤ 7)) : SliceParser σ Unit) Q t ↔ _
  rw [wp_bind, wp_assertThat, wp_assertThat, decide_eq_true_iff, decide_eq_true_iff, ht, hQ t ht]

theorem wp_readPredWeightTable (hdenom : s.header.predWeightTable.chromaLog2WeightDenom = 0)
    (hQ : ∀ denoms, Follows { s.header.core with denoms := denoms } Q next) :
    wp .outOfBounds readPredWeightTable Q s ↔
      WeightTableFits s.header.sequenceParameterSet.chromaFormatIdc s.header.sliceType
        (s.header.activeL0, s.header.activeL1) next s.bits := by
  have hchecked := fun denoms => wp_checkPredWeightTable (hQ denoms)
  show wp Stop.outOfBounds (readWeightDenoms s.header.sequenceParameterSet.chromaFormatIdc >>=
    fun _ => readWeights weightsL0 s.header.sequenceParameterSet.chromaFormatIdc s.header.activeL0
      >>= fun _ => when (sliceTypeIs s.header.sliceType sliceTypeB)
        (readWeights weightsL1 s.header.sequenceParameterSet.chromaFormatIdc s.header.activeL1)
      >>= fun _ => checkPredWeightTable) Q s ↔ _
  rw [wp_bind]
  refine (leaves_readWeightDenoms _ s hdenom).wp_iff fun h m hh => ?_
  rw [wp_bind]
  refine wp_readWeights weightsL0 (fun _ _ => rfl) _ _ (fun t ht => ?_) _ hh
  refine wp_bind.trans ?_
  cases sliceTypeIs s.header.sliceType sliceTypeB with
  | false => exact hchecked _ t ht
  | true => exact wp_readWeights weightsL1 (fun _ _ => rfl) _ _ (hchecked _) t ht

/-! ## The members before -/

theorem leaves_readOrderCounts (hs : s.header.core = core) :
    SliceLeaves readOrderCounts s ()
      (orderCountsEnd core.pictureParameterSet core.fieldPicFlag s.bits) core := by
  obtain rfl := hs
  refine Leaves.ite ?_ (Leaves.when ?_ rfl)
  · exact (leaves_read rfl).bind fun h m hh => Leaves.when (leaves_read hh) hh
  · exact (leaves_read rfl).bind fun h m hh => Leaves.when (leaves_read hh) hh

/-- `field_pic_flag` and `bottom_field_flag`. -/
theorem leaves_field (s : SliceState σ) (hfield : s.header.fieldPicFlag = 0)
    (sps : SequenceParameterSetHeader) :
    SliceLeaves (when (sps.frameMbsOnlyFlag == 0) do
      let flag ← take (u 1)
      setHeader fun h => { h with fieldPicFlag := flag }
      when (flag != 0) <| read (u 1) fun v h => { h with bottomFieldFlag := v }) s ()
      (fieldEnd sps s.bits) { s.header.core with fieldPicFlag := fieldFlag sps s.bits } := by
  unfold fieldEnd fieldFlag
  cases sps.frameMbsOnlyFlag == 0 with
  | false =>
    refine leaves_pure () ?_
    show s.header.core = { s.header.core with fieldPicFlag := 0 }
    rw [← hfield]
    rfl
  | true =>
    refine (leaves_take (u 1) rfl).bind fun h m hh => ?_
    refine (leaves_setHeader (b := { h.core with fieldPicFlag := (u 1 s.bits).1 }) rfl).bind
      fun h' m' hh' => ?_
    rw [hh] at hh'
    exact Leaves.when (leaves_read hh') hh'

theorem leaves_readPicture (s : SliceState σ) (hfield : s.header.fieldPicFlag = 0) :
    ∃ field, SliceLeaves readPicture s ()
      (pictureEnd s.header.pictureParameterSet s.header.nalUnitType s.bits)
      { s.header.core with fieldPicFlag := field } := by
  refine ⟨fieldFlag s.header.sequenceParameterSet
    (u (s.header.sequenceParameterSet.log2MaxFrameNumMinus4 + 4).toNat s.bits).2, ?_⟩
  refine Leaves.after_header ((leaves_read rfl).bind fun h m hh => ?_)
  have hfield' : h.fieldPicFlag = 0 := (congrArg SliceCore.fieldPicFlag hh).trans hfield
  refine (leaves_field ⟨_, h, m⟩ hfield' s.header.sequenceParameterSet).bind fun h' m' hh' => ?_
  dsimp only at hh'
  rw [hh] at hh'
  refine (Leaves.when (leaves_read hh') hh').bind fun h m hh => ?_
  refine (leaves_readOrderCounts hh).bind fun h m hh => ?_
  exact Leaves.when (leaves_read hh) hh

/-- The active references of both lists, as they are taken. -/
def SliceCore.references (core : SliceCore) : Word × Word :=
  if core.numRefIdxActiveOverrideFlag != 0 then core.active
  else (core.pictureParameterSet.numRefIdxL0ActiveMinus1,
    core.pictureParameterSet.numRefIdxL1ActiveMinus1)

/-- The override. -/
theorem leaves_override (second : Bool) (hs : s.header.core = core)
    (hactive : core.active = (0, 0)) :
    let override := u 1 s.bits
    let l0 := ue override.2
    let l1 := if second then ue l0.2 else (0, l0.2)
    SliceLeaves (do
      let flag ← take (u 1)
      setHeader fun h => { h with numRefIdxActiveOverrideFlag := flag }
      when (flag != 0) do
        read ue fun v h => { h with numRefIdxL0ActiveMinus1 := v }
        when second <| read ue fun v h => { h with numRefIdxL1ActiveMinus1 := v }) s ()
      (if override.1 != 0 then l1.2 else override.2)
      { core with
        numRefIdxActiveOverrideFlag := override.1
        active := if override.1 != 0 then (l0.1, l1.1) else (0, 0) } := by
  dsimp only
  refine (leaves_take (u 1) hs).bind fun h m hh => ?_
  refine (leaves_setHeader (b := { core with numRefIdxActiveOverrideFlag := (u 1 s.bits).1 })
    ?_).bind fun h m hh => ?_
  · rw [← hh]
    rfl
  cases (u 1 s.bits).1 != 0 with
  | false =>
    refine leaves_pure () (hh.trans ?_)
    rw [← hactive]
    rfl
  | true =>
    refine (leaves_read (b := { core with
      numRefIdxActiveOverrideFlag := (u 1 s.bits).1
      active := ((ue (u 1 s.bits).2).1, 0) }) ?_).bind fun h m hh => ?_
    · show { h.core with active := ((ue (u 1 s.bits).2).1, h.core.active.2) } = _
      rw [hh, hactive]
    · cases second with
      | false => exact leaves_pure () hh
      | true =>
        refine leaves_read ?_
        show { h.core with active := (h.core.active.1, (ue (ue (u 1 s.bits).2).2).1) } = _
        rw [hh]
        rfl

theorem leaves_readActiveReferences (hs : s.header.core = core)
    (hflag : core.numRefIdxActiveOverrideFlag = 0) (hactive : core.active = (0, 0)) :
    ∃ flag active, SliceLeaves readActiveReferences s ()
        (activeReferences core.pictureParameterSet core.sliceType s.bits).2
        { core with numRefIdxActiveOverrideFlag := flag, active := active } ∧
      ({ core with numRefIdxActiveOverrideFlag := flag, active := active } : SliceCore).references =
        (activeReferences core.pictureParameterSet core.sliceType s.bits).1 := by
  obtain rfl := hs
  have hspatial : SliceLeaves (when (sliceTypeIs s.header.core.sliceType sliceTypeB) <|
      read (u 1) fun v h => { h with directSpatialMvPredFlag := v }) s ()
        (if sliceTypeIs s.header.core.sliceType sliceTypeB then skip [u 1] s.bits else s.bits)
          s.header.core := Leaves.when (leaves_read rfl) rfl
  unfold activeReferences
  dsimp only
  generalize (if sliceTypeIs s.header.core.sliceType sliceTypeB then skip [u 1] s.bits
    else s.bits) = bits at hspatial ⊢
  have hoverride := fun h m (hh : (h : SliceHeader).core = s.header.core) =>
    leaves_override (s := ⟨bits, h, m⟩) (sliceTypeIs s.header.core.sliceType sliceTypeB) hh hactive
  dsimp only at hoverride
  cases hlists : sliceTypeIs s.header.core.sliceType sliceTypeP ||
    sliceTypeIs s.header.core.sliceType sliceTypeSP || sliceTypeIs s.header.core.sliceType sliceTypeB
  with
  | false =>
    refine ⟨_, _, Leaves.after_header (hspatial.bind fun h m hh => leaves_when_false hlists hh), ?_⟩
    unfold SliceCore.references
    rw [show s.header.numRefIdxActiveOverrideFlag = 0 from hflag]
    rfl
  | true =>
    cases hoverridden : (u 1 bits).1 != 0 with
    | false =>
      rw [hoverridden] at hoverride
      refine ⟨_, _, Leaves.after_header (hspatial.bind fun h m hh =>
        Leaves.when_true hlists (hoverride h m hh)), ?_⟩
      unfold SliceCore.references
      rw [hoverridden]
      rfl
    | true =>
      rw [hoverridden] at hoverride
      refine ⟨_, _, Leaves.after_header (hspatial.bind fun h m hh =>
        Leaves.when_true hlists (hoverride h m hh)), ?_⟩
      unfold SliceCore.references
      rw [hoverridden]
      rfl

/-! ## Parts without an array -/

omit [BitSource σ] in
theorem never_readLaterSlice (firstMbInSlice sliceType : Word) :
    Never (readLaterSlice firstMbInSlice sliceType : SliceParser σ Unit) .outOfBounds := by
  refine (always_members.never _).bind fun m => ?_
  refine (always_header.never _).bind fun h => (never_assertThat _).bind fun _ => ?_
  refine Never.bind (Never.when _ ?_) fun _ => Never.when _ ((Always.modify _).never _)
  exact ((Always.modify _).never _).bind fun _ => Never.stop (by simp)

theorem never_finishSliceHeader : Never (finishSliceHeader : SliceParser σ Unit) .outOfBounds := by
  refine (always_header.never _).bind fun h => ((Always.modify _).never _).bind fun _ => ?_
  refine ((always_setHeader _).never _).bind fun _ => never_assertAntiEmulationOk.bind fun _ => ?_
  refine (never_assertThat _).bind fun _ => (never_assertThat _).bind fun _ => ?_
  refine (never_assertThat _).bind fun _ => (never_assertThat _).bind fun _ => ?_
  exact (never_assertThat _).bind fun _ => (never_assertThat _).bind fun _ =>
    (never_assertThat _).bind fun _ => never_assertThat _

/-- The last request is the only one behind the marking commands. -/
theorem wp_readSliceCoding :
    Follows core
      (fun _ (s : SliceState σ) => wp .outOfBounds (readSliceCoding >>= fun _ => finishSliceHeader)
        (fun _ _ => True) s) (Room 32 fun _ => True) := by
  intro s hs
  refine wp_bind.trans (wp_bind.trans (wp_checkAntiEmulationBuffer hs fun t _ => ?_))
  refine iff_of_true (wp_bind.mp (Never.wp ?_)) trivial
  refine Never.bind ?_ fun _ => never_finishSliceHeader
  refine Always.never (always_header.bind fun h => ?_) _
  refine (Always.when _ (always_read _ _)).bind fun _ => (always_read _ _).bind fun _ => ?_
  refine Always.bind (Always.when _ ?_) fun _ => Always.bind (Always.when _ ?_) fun _ =>
    Always.when _ (always_read _ _)
  · exact (Always.when _ (always_read _ _)).bind fun _ => always_read _ _
  · exact (always_take _).bind fun _ => (always_setHeader _).bind fun _ =>
      Always.when _ ((always_read _ _).bind fun _ => always_read _ _)

theorem wp_readFromMarking :
    Follows core (fun _ (s : SliceState σ) => wp .outOfBounds readFromMarking (fun _ _ => True) s)
      (SliceEndFits core.nalUnitType core.nalRefIdc) := by
  intro s hs
  obtain rfl := hs
  show wp Stop.outOfBounds (when (s.header.nalRefIdc != 0) readDecRefPicMarking >>= fun _ =>
    readSliceCoding >>= fun _ => finishSliceHeader) _ s ↔ _
  unfold SliceEndFits
  rw [wp_bind]
  show _ ↔ (if s.header.nalRefIdc != 0 then MarkingFits s.header.nalUnitType (Room 32 fun _ => True)
    else Room 32 fun _ => True) s.bits
  cases s.header.nalRefIdc != 0 with
  | false => exact wp_readSliceCoding s rfl
  | true => exact wp_readDecRefPicMarking wp_readSliceCoding s rfl

theorem SliceHeader.references_core (h : SliceHeader) :
    h.core.references = (h.activeL0, h.activeL1) := by
  unfold SliceCore.references SliceHeader.activeL0 SliceHeader.activeL1
  show (if h.numRefIdxActiveOverrideFlag != 0 then _ else _) = _
  split <;> rfl

/-- From the weights on. -/
theorem wp_readWeighted (hdenom : core.denoms.2 = 0) :
    Follows core
      (fun _ (s : SliceState σ) => wp .outOfBounds (do
        let h ← header
        when h.weighted readPredWeightTable
        readFromMarking) (fun _ _ => True) s)
      (if weightsFollow core.pictureParameterSet core.sliceType then
        WeightTableFits core.pictureParameterSet.sequenceParameterSet.chromaFormatIdc core.sliceType
          core.references (SliceEndFits core.nalUnitType core.nalRefIdc)
      else SliceEndFits core.nalUnitType core.nalRefIdc) := by
  intro s hs
  obtain rfl := hs
  show wp Stop.outOfBounds (when s.header.weighted readPredWeightTable >>= fun _ =>
    readFromMarking) _ s ↔ _
  rw [wp_bind, SliceHeader.references_core]
  show _ ↔ (if s.header.weighted then
      WeightTableFits s.header.sequenceParameterSet.chromaFormatIdc s.header.sliceType
        (s.header.activeL0, s.header.activeL1)
        (SliceEndFits s.header.nalUnitType s.header.nalRefIdc)
    else SliceEndFits s.header.nalUnitType s.header.nalRefIdc) s.bits
  cases s.header.weighted with
  | false => exact wp_readFromMarking s rfl
  | true => exact wp_readPredWeightTable hdenom fun denoms => wp_readFromMarking

/-- From the frame number on. -/
theorem wp_readSlice (hfield : s.header.fieldPicFlag = 0)
    (hflag : s.header.numRefIdxActiveOverrideFlag = 0) (hactive : s.header.core.active = (0, 0))
    (hdenom : s.header.core.denoms.2 = 0) :
    wp .outOfBounds (do
      readPicture
      readActiveReferences
      readRefPicListReordering)
      (fun _ t => wp .outOfBounds (do
        let h ← header
        when h.weighted readPredWeightTable
        readFromMarking) (fun _ _ => True) t) s ↔
      SliceFits s.header.pictureParameterSet s.header.nalUnitType s.header.nalRefIdc
        s.header.sliceType s.bits := by
  obtain ⟨field, hpicture⟩ := leaves_readPicture s hfield
  rw [wp_bind]
  refine hpicture.wp_iff fun h m hh => ?_
  obtain ⟨flag, active, hread, hreferences⟩ :=
    leaves_readActiveReferences (s := (⟨_, h, m⟩ : SliceState σ)) hh hflag hactive
  rw [wp_bind]
  refine hread.wp_iff fun h m hh => ?_
  let core : SliceCore :=
    { s.header.core with
      fieldPicFlag := field
      numRefIdxActiveOverrideFlag := flag
      active := active }
  have hkept : core.denoms.2 = 0 := hdenom
  have hrest := wp_readRefPicListReordering (wp_readWeighted (σ := σ) hkept)
  rw [hreferences] at hrest
  exact hrest _ hh

/-! ## The parameter set -/

omit [BitSource σ] in
theorem wp_members {Q : SliceMembers → SliceState σ → Prop} :
    wp .outOfBounds members Q s ↔ Q s.members s := Iff.rfl

omit [BitSource σ] in
theorem wp_startSliceHeader (firstMbInSlice sliceType : Word) :
    wp .outOfBounds (startSliceHeader firstMbInSlice sliceType) Q s ↔
      (s.members.getNewFrameParameters = none →
        Q () { s with
          header :=
            { (default : SliceHeader) with
              nalUnitType := s.members.nalUnitType
              nalRefIdc := s.members.nalRefIdc
              firstMbInSlice := firstMbInSlice
              sliceType := sliceType }
          members := { s.members with frameParameters := true, sliceHeader := true } }) := by
  unfold startSliceHeader
  rw [wp_bind, wp_members]
  cases s.members.getNewFrameParameters with
  | none => exact ⟨fun h _ => h, fun h => h rfl⟩
  | some status => exact iff_of_true (fun h => nomatch h) fun h => nomatch h

/-- The header at a place of the table. -/
def SliceMembers.parameterSet (m : SliceMembers) (id : Word) : Option PictureParameterSetHeader :=
  if h : id.toNat < maxPictureParameterSets then m.pictureParameterSetTable[id.toNat] else none

theorem wp_readParameterSetId :
    wp .outOfBounds readParameterSetId Q s ↔
      (ue s.bits).1.toNat ≠ maxPictureParameterSets ∧
        ∀ pps, s.members.parameterSet (ue s.bits).1 = some pps →
          Q () { s with
            bits := (ue s.bits).2
            header :=
              { s.header with
                picParameterSetId := (ue s.bits).1
                pictureParameterSet := pps } } := by
  show wp Stop.outOfBounds (assertThat (decide ((ue s.bits).1.toNat ≤ maxPictureParameterSets)) >>=
    fun _ => pictureParameterSet (ue s.bits).1.toNat >>= fun o => _ : SliceParser σ Unit) Q _ ↔ _
  rw [wp_bind, wp_assertThat, decide_eq_true_iff, wp_bind]
  unfold SliceMembers.parameterSet pictureParameterSet
  rcases Nat.lt_trichotomy (ue s.bits).1.toNat maxPictureParameterSets with hlt | heq | hgt
  · rw [dif_pos hlt, and_iff_right (Nat.ne_of_lt hlt), imp_iff_right (Nat.le_of_lt hlt)]
    simp only [dif_pos hlt]
    rw [wp_bind, wp_members, wp_pure]
    cases s.members.pictureParameterSetTable[(ue s.bits).1.toNat] with
    | none => exact iff_of_true (fun h => nomatch h) fun pps h => nomatch h
    | some set => exact ⟨fun h pps hpps => Option.some.inj hpps ▸ h, fun h => h set rfl⟩
  · -- 256 is let through, and is behind the table
    refine iff_of_false (fun h => ?_) fun h => h.1 heq
    have hread := h (Nat.le_of_eq heq)
    simp only [dif_neg (Nat.not_lt.mpr (Nat.le_of_eq heq.symm))] at hread
    exact hread rfl
  · rw [dif_neg (Nat.not_lt.mpr (Nat.le_of_lt hgt))]
    exact iff_of_true (fun h => absurd h (Nat.not_le.mpr hgt))
      ⟨Nat.ne_of_gt hgt, fun pps h => nomatch h⟩

/-! ## The header -/

/-- What a slice must code to be read within the bounds of every array: a first slice that
gets its frame parameters does not name parameter set 256, and if the set it names is there,
each request has room and the weights have their places. -/
def WithinBounds (s : SliceState σ) : Prop :=
  let first := ue s.bits
  let type := ue first.2
  let id := ue type.2
  first.1 = 0 → s.members.getNewFrameParameters = none →
    id.1.toNat ≠ maxPictureParameterSets ∧
      ∀ pps, s.members.parameterSet id.1 = some pps →
        SliceFits pps s.members.nalUnitType s.members.nalRefIdc type.1 id.2

/-- Before the first slice of a picture, with no parameter set installed. -/
def beforeFirstSlice (bits : List Bool) : SliceState BitList where
  bits := ⟨bits⟩
  header := default
  members := {
    frameParameters := false
    sliceHeader := false
    getNewFrameParameters := none
    pictureParameterSetTable := Vector.replicate _ none
    nalUnitType := naluTypeIdr
    nalRefIdc := 1
    independentFrame := true
    streamUnPlayable := false
    picOrder := PicOrder.reset }

/-- `first_mb_in_slice` 0, `slice_type` 0 and `pic_parameter_set_id` 256. -/
def set256Bits : List Bool :=
  [true, true] ++ List.replicate 8 false ++ [true] ++ List.replicate 7 false ++ [true]

end Duckbox.H264.Coded
