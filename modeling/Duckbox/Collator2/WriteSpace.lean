import Duckbox.Collator2.PesVideo

/-!
# What `NonBlockingWriteSpace` promises

`Collator_c::NonBlockingWriteSpace` tells the writer how much it can give to a call of
`Input` that is not to block. The figure is the free space less the headroom, but the
comparison that guards the subtraction is the wrong way round: where there is room the
writer is told of none, and where there is less than the headroom the difference wraps.

> `nonBlockingWriteSpace_honest`: every state of a run is honest about it (`Honest`)
> exactly if there is the headroom in every one of them.

Where it is honest, it is because the figure is 0 (`nonBlockingWriteSpace_eq_zero`): a call
with nothing in it returns before it accumulates anything (`Session.Empty`).
-/

namespace Duckbox.Collator2

open BufferPool (UnsignedInt)
open Player (PlayDirection)
open Collator (Byte)
open Lib (Along)
open Pes (PesTimes)

/-! ## The figure -/

/-- `NonBlockingWriteSpace`. -/
def Collator2Base.nonBlockingWriteSpace (s : Collator2Base) : UnsignedInt :=
  if minimumAccumulationHeadroom < s.codedFrameBufferFreeSpace then 0
  else s.codedFrameBufferFreeSpace - minimumAccumulationHeadroom

namespace Collator2Base

variable {s : Collator2Base}

theorem nonBlockingWriteSpace_eq_zero
    (hroom : minimumAccumulationHeadroom ≤ s.codedFrameBufferFreeSpace) :
    s.nonBlockingWriteSpace = 0 := by
  unfold nonBlockingWriteSpace
  split
  · rfl
  · next hle =>
    have heq : s.codedFrameBufferFreeSpace = minimumAccumulationHeadroom :=
      BitVec.le_antisymm (BitVec.not_lt.mp hle) hroom
    rw [heq]
    exact BitVec.sub_self _

theorem nonBlockingWriteSpace_wraps
    (hlow : ¬ minimumAccumulationHeadroom ≤ s.codedFrameBufferFreeSpace) :
    s.nonBlockingWriteSpace.toNat =
      2 ^ 32 - minimumAccumulationHeadroom.toNat + s.codedFrameBufferFreeSpace.toNat := by
  have hlt : s.codedFrameBufferFreeSpace < minimumAccumulationHeadroom := BitVec.not_le.mp hlow
  have hfree : s.codedFrameBufferFreeSpace.toNat < 1024 := BitVec.lt_def.mp hlt
  have hsize : minimumAccumulationHeadroom.toNat = 1024 := rfl
  unfold nonBlockingWriteSpace
  rw [if_neg (BitVec.lt_asymm hlt), BitVec.toNat_sub, hsize]
  omega

end Collator2Base

/-! ## The promise -/

variable (c : VideoConfiguration) (env : Environment)

namespace Session

/-- A stage of a call that finds no space: data it is to accumulate is refused or dumped, or
the call is to return `CollatorWouldBlock`. -/
def LacksSpace (m : Session) : Event → Prop
  | .stage pool => ∃ r place, m.input = some (r, place) ∧
      ((∃ data answers, (m.collator.stage c env pool r place).operation =
          some (.accumulateData data answers) ∧
          m.collator.base.status c.toConfiguration (.accumulateData data answers) ≠
            .collatorNoError) ∨
        ∃ rest, (m.step c env (.stage pool)).input = some (rest, .exit .collatorWouldBlock))
  | _ => False

/-- The writer can rely on what `NonBlockingWriteSpace` tells it. -/
structure Honest (m : Session) : Prop where
  below : m.collator.base.nonBlockingWriteSpace.toNat ≤
    m.collator.base.codedFrameBufferFreeSpace.toNat - minimumAccumulationHeadroom.toNat
  zero : m.collator.base.codedFrameBufferFreeSpace < minimumAccumulationHeadroom →
    m.collator.base.nonBlockingWriteSpace = 0
  /-- So much is written without any stage of the call lacking space. -/
  writes : m.input = none → ∀ direction descriptor data (pools : List PoolAnswers),
    Along (step c env) (fun m event => ¬ m.LacksSpace c env event) m
      (.input direction descriptor true data m.collator.base.nonBlockingWriteSpace ::
        pools.map .stage)

/-! ## A call with nothing in it -/

/-- There is no call under way, or one with nothing in it that has not gone beyond the top of
the loop, or returns. -/
def Empty (m : Session) : Prop :=
  ∀ r place, m.input = some (r, place) → r.length = 0 ∧
    ((∃ descriptor nonBlocking, place = .entry descriptor nonBlocking) ∨
      place = .top .collatorNoError ∨ place = .exit .collatorNoError)

variable {c : VideoConfiguration} {env : Environment} {m : Session}

theorem Empty.of_none (h : m.input = none) : m.Empty := by
  intro r place hinput
  rw [h] at hinput
  exact nomatch hinput

theorem Empty.of_some {r : Collator.Remaining} {place : Place} (h : m.input = some (r, place))
    (hempty : r.length = 0)
    (hplace : (∃ descriptor nonBlocking, place = .entry descriptor nonBlocking) ∨
      place = .top .collatorNoError ∨ place = .exit .collatorNoError) : m.Empty := by
  intro r' place' hinput
  obtain ⟨rfl, rfl⟩ := Prod.mk.inj (Option.some.inj (h.symm.trans hinput))
  exact ⟨hempty, hplace⟩

theorem step_input_empty (h : m.input = none) (direction : PlayDirection)
    (descriptor : InputDescriptor) (nonBlocking : Bool) (data : UnsignedInt → Byte) :
    (m.step c env (.input direction descriptor nonBlocking data 0)).Empty := by
  unfold step
  rw [h]
  dsimp only
  by_cases hdirection : (m.collator.base.setDirection c.toConfiguration direction).1 =
    .collatorNoError
  · exact Empty.of_some (if_pos hdirection) rfl (.inl ⟨descriptor, nonBlocking, rfl⟩)
  · exact Empty.of_none (if_neg hdirection)

variable (c env) in
theorem step_stage_empty (h : m.Empty) (pool : PoolAnswers) :
    (m.step c env (.stage pool)).Empty ∧ ¬ m.LacksSpace c env (.stage pool) := by
  cases hinput : m.input with
  | none =>
    have hstep : m.step c env (.stage pool) = m := by
      unfold step
      rw [hinput]
    rw [hstep]
    refine ⟨h, ?_⟩
    rintro ⟨r, place, hsome, -⟩
    rw [hinput] at hsome
    exact nomatch hsome
  | some under =>
    obtain ⟨r, place⟩ := under
    obtain ⟨hlength, hplace⟩ := h r place hinput
    have hstep : m.step c env (.stage pool) =
        m.collator.perform c (m.collator.stage c env pool r place) := by
      unfold step
      rw [hinput]
    -- what a stage has to show, given what it does and where the call goes on
    have hshow : (∀ data answers, (m.collator.stage c env pool r place).operation ≠
          some (.accumulateData data answers)) →
        (m.collator.perform c (m.collator.stage c env pool r place)).Empty →
        (m.step c env (.stage pool)).Empty ∧ ¬ m.LacksSpace c env (.stage pool) := by
      intro hother hempty
      rw [← hstep] at hempty
      refine ⟨hempty, ?_⟩
      rintro ⟨r', place', hsome, hlacks⟩
      obtain ⟨rfl, rfl⟩ := Prod.mk.inj (Option.some.inj (hinput.symm.trans hsome))
      rcases hlacks with ⟨data, answers, hoperation, -⟩ | ⟨rest, hexit⟩
      · exact hother data answers hoperation
      · obtain ⟨-, ⟨_, _, hentry⟩ | htop | hblock⟩ := hempty rest _ hexit
        · exact nomatch hentry
        · exact nomatch htop
        · exact nomatch hblock
    rcases hplace with ⟨descriptor, nonBlocking, rfl⟩ | rfl | rfl
    · refine hshow (fun _ _ heq => nomatch heq) ?_
      unfold PesVideo.stage PesVideo.perform
      dsimp only
      split
      · exact Empty.of_none rfl
      · exact Empty.of_some rfl hlength (.inr (.inl rfl))
    · have htop : m.collator.stage c env pool r (.top .collatorNoError) =
          ⟨none, fun _ s => s.goTo r (.exit .collatorNoError)⟩ := if_pos hlength
      rw [htop] at hshow
      exact hshow (fun _ _ heq => nomatch heq) (Empty.of_some rfl hlength (.inr (.inr rfl)))
    · exact hshow (fun _ _ heq => nomatch heq) (Empty.of_none rfl)

theorem stages_empty (h : m.Empty) (pools : List PoolAnswers) :
    Along (step c env) (fun m event => ¬ m.LacksSpace c env event) m (pools.map .stage) := by
  induction pools generalizing m with
  | nil => trivial
  | cons pool pools ih =>
    obtain ⟨hnext, hspace⟩ := step_stage_empty c env h pool
    exact ⟨hspace, ih hnext⟩

/-! ## The result -/

theorem honest_iff : m.Honest c env ↔
    minimumAccumulationHeadroom ≤ m.collator.base.codedFrameBufferFreeSpace := by
  constructor
  · intro h
    refine Classical.byContradiction fun hlow => ?_
    have hzero := h.zero (BitVec.not_le.mp hlow)
    have hwraps := Collator2Base.nonBlockingWriteSpace_wraps hlow
    rw [hzero] at hwraps
    have hsize : minimumAccumulationHeadroom.toNat = 1024 := rfl
    have hnone : (0 : UnsignedInt).toNat = 0 := rfl
    omega
  · intro hroom
    have hzero := Collator2Base.nonBlockingWriteSpace_eq_zero hroom
    refine ⟨?_, fun _ => hzero, ?_⟩
    · rw [hzero]
      exact Nat.zero_le _
    · intro hnone direction descriptor data pools
      rw [hzero]
      exact ⟨id, stages_empty (step_input_empty hnone direction descriptor true data) pools⟩

variable (c env)

/-- In every run, the figure is honest in every state exactly if every state has at least the
headroom free. -/
theorem nonBlockingWriteSpace_honest (memory : Address → BitVec 8) (buffer : OperatingBuffer)
    (pes : PesTimes) (events : List Event) :
    (∀ pre, pre <+: events →
        (pre.foldl (step c env) (registered c memory buffer pes)).Honest c env) ↔
      ∀ pre, pre <+: events → minimumAccumulationHeadroom ≤
        (pre.foldl (step c env) (registered c memory buffer pes)).collator.base.codedFrameBufferFreeSpace :=
  forall_congr' fun _ => imp_congr_right fun _ => honest_iff

/-! ## Less than the headroom -/

/-- The H.264 collator with buffers of 1100 bytes. -/
def smallBuffers : VideoConfiguration := .h264 1100

/-- What no header is presented to. -/
def quiet : Environment := ⟨fun _ => 0, fun _ _ _ => ⟨false, false, false⟩, 0⟩

/-- A hundred bytes with no code in them, given to it in forward play. -/
def hundredBytes : List Event :=
  .input .playForward ⟨⟨false, 0, false, 0⟩, 0⟩ true (fun _ => 0xff) 100 ::
    List.replicate 6 (.stage (Collator2Base.amplePool 1100))

/-- The call has returned, with 1000 bytes free. -/
def withoutHeadroom : Session :=
  hundredBytes.foldl (step smallBuffers quiet)
    (registered smallBuffers (fun _ => 0) ⟨0, 0x1000, 1100, 0, true⟩
      ⟨⟨false, 0, false, 0⟩, ⟨false, 0, false, 0⟩, false, 0, 0, ⟨false, 0, false, 0⟩, 0⟩)

/-- All that fits is in the buffer, and the writer is told of almost 4 GB. -/
theorem writeSpace_wraps :
    withoutHeadroom.input = none ∧
    withoutHeadroom.collator.base.codedFrameBufferFreeSpace = 1000 ∧
    withoutHeadroom.collator.base.nonBlockingWriteSpace = 4294967272 ∧
    ¬ withoutHeadroom.Honest smallBuffers quiet := by
  have hfree : withoutHeadroom.collator.base.codedFrameBufferFreeSpace = 1000 := by decide +kernel
  refine ⟨by decide +kernel, hfree, by decide +kernel, fun h => ?_⟩
  have hroom := honest_iff.mp h
  rw [hfree] at hroom
  exact absurd hroom (by decide)

end Session

end Duckbox.Collator2
