import Duckbox.Lib.Loop
import Duckbox.OutputCoordinator.Base

/-!
# The master clock

Which stream the system clock follows: with `PolicyMasterClock` for audio or for video the
first stream of that type (`GotAMasterClock`), and while there is none the first of any
(`GotAnAlternateMasterClock`). De-registration of a master makes another stream of its
type the master, and does not ask whether the one before was an alternate: a stream of
the policy's type that comes then is not taken for the master.

A stream that cannot be registered (no manifestor, no surface) is no event.

> `selected_iff_along`: the master is of the policy's type in every state of a run just
> where no stream of that type registers while one of another stands for a real master.
-/

namespace Duckbox.OutputCoordinator

open Lib (Along)

/-- `PlayerStreamType_t`. -/
inductive StreamType where
  | none
  | audio
  | video
  | other
deriving DecidableEq, Repr

/-- The values of `PolicyMasterClock`. -/
inductive MasterClock where
  | videoClockMaster
  | audioClockMaster
  | systemClockMaster
deriving DecidableEq, Repr

/-- A policy for the clock of streams of a type. -/
def MasterClock.isFor (policy : MasterClock) (type : StreamType) : Bool :=
  policy = .videoClockMaster ∧ type = .video ∨ policy = .audioClockMaster ∧ type = .audio

/-- The members of `OutputCoordinator_Base_c` that are about the master clock. -/
structure Masters where
  base : Base
  streamType : Nat → StreamType
  clockMaster : Nat → Bool
  gotAMasterClock : Bool
  gotAnAlternateMasterClock : Bool
  alternateMasterContext : Option Nat

namespace Masters

/-- `Reset`. -/
def reset : Masters := ⟨.reset, fun _ => .none, fun _ => false, false, false, none⟩

/-- The streams that are registered, the last one first. -/
abbrev registered (s : Masters) : List Nat := s.base.coordinatedContexts

/-- A context's `ClockMaster` is written. -/
def setClockMaster (s : Masters) (id : Nat) (master : Bool) : Masters :=
  { s with clockMaster := Function.update s.clockMaster id master }

/-- "If we already had an alternate master that we no longer need". -/
def dropAlternate (s : Masters) (possibleMaster : Bool) : Masters :=
  if possibleMaster && s.gotAnAlternateMasterClock then
    { s with
      gotAnAlternateMasterClock := false
      clockMaster := fun id =>
        if s.alternateMasterContext = some id then false else s.clockMaster id }
  else s

/-- A context that is new. -/
def add (s : Masters) (id : Nat) (type : StreamType) : Masters :=
  { s.setClockMaster id false with
    base := s.base.registerStream id (type = .video)
    streamType := Function.update s.streamType id type }

/-- "We have found a real master". -/
def takeMaster (s : Masters) (id : Nat) (possibleMaster : Bool) : Masters :=
  if !s.gotAMasterClock && possibleMaster then
    { s.setClockMaster id true with gotAMasterClock := true }
  else s

/-- "Not a real master, but a possible alternate". -/
def takeAlternate (s : Masters) (id : Nat) (possibleAlternateMaster : Bool) : Masters :=
  if !s.gotAMasterClock && !s.gotAnAlternateMasterClock && possibleAlternateMaster then
    { s.setClockMaster id true with
      gotAnAlternateMasterClock := true
      alternateMasterContext := some id }
  else s

/-- `RegisterStream`. -/
def registerStream (policy : MasterClock) (s : Masters) (id : Nat) (type : StreamType) : Masters :=
  if id ∈ s.registered then s
  else
    let possibleMaster := policy.isFor type
    (((s.dropAlternate possibleMaster).add id type).takeMaster id possibleMaster).takeAlternate id
      (policy ≠ .systemClockMaster)

/-- "Was this a master clock": another stream of its type, the last to register, becomes one. -/
def promote (s : Masters) (id : Nat) : Masters :=
  if s.clockMaster id then
    let s := { s with
      gotAMasterClock := false
      gotAnAlternateMasterClock := false
      alternateMasterContext := none }
    match (s.registered.erase id).find? fun other => s.streamType other = s.streamType id with
    | some other => { s.setClockMaster other true with gotAMasterClock := true }
    | none => s
  else s

/-- `DeRegisterStream`, which waits for the stream to leave `SynchronizeStreams`. -/
def deRegisterStream (s : Masters) (id : Nat) : Masters :=
  if id ∈ s.registered ∧ !(s.base.context id).inStartupDelay ∧ !(s.base.context id).inSynchronizeFn then
    { s.promote id with base := s.base.deRegisterStream id }
  else s

inductive Event where
  | registerStream (id : Nat) (type : StreamType)
  | deRegisterStream (id : Nat)
deriving DecidableEq

def step (policy : MasterClock) (s : Masters) : Event → Masters
  | .registerStream id type => s.registerStream policy id type
  | .deRegisterStream id => s.deRegisterStream id

/-! ## The clock master of the policy's type -/

/-- A stream that is registered and the clock master. -/
def IsMaster (s : Masters) (id : Nat) : Prop := id ∈ s.registered ∧ s.clockMaster id = true

/-- A stream that is registered and allowed to adjust the mapping base. -/
def MayAdjust (s : Masters) (id : Nat) : Prop :=
  id ∈ s.registered ∧ (s.base.context id).allowedToAdjustMappingBase = true

/-- No more than one is the master, and no more than one may adjust the mapping base; one
may where there is a video stream, and the master is of the policy's type where a stream
of that is. -/
structure Selected (policy : MasterClock) (s : Masters) : Prop where
  oneMaster : ∀ {a b}, s.IsMaster a → s.IsMaster b → a = b
  oneAdjusts : ∀ {a b}, s.MayAdjust a → s.MayAdjust b → a = b
  adjusts : (∃ id ∈ s.registered, s.streamType id = .video) → ∃ id, s.MayAdjust id
  ofType : (∃ id ∈ s.registered, policy.isFor (s.streamType id)) →
    (∃ id, s.IsMaster id) ∧ ∀ id, s.IsMaster id → policy.isFor (s.streamType id)

/-- A stream of the policy's type does not register while one of another type stands for
a real master. -/
def Minds (policy : MasterClock) (s : Masters) : Event → Prop
  | .registerStream id type => id ∉ s.registered → policy.isFor type → s.gotAMasterClock →
      ∀ master ∈ s.registered, s.clockMaster master → policy.isFor (s.streamType master)
  | .deRegisterStream _ => True

instance (policy : MasterClock) (s : Masters) : ∀ event, Decidable (Minds policy s event)
  | .registerStream _ _ => inferInstanceAs (Decidable (_ → _ → _ → ∀ _, _))
  | .deRegisterStream _ => isTrue trivial

/-- What `GotAVideoStream` says. -/
structure Adjusting (s : Masters) : Prop where
  isVideo : ∀ id ∈ s.registered, (s.base.context id).video = decide (s.streamType id = .video)
  oneAdjusts : ∀ {a b}, s.MayAdjust a → s.MayAdjust b → a = b
  gotVideo : s.base.gotAVideoStream ↔ ∃ id, s.MayAdjust id
  videoAdjusts : ∀ {id}, s.MayAdjust id → s.streamType id = .video
  video : ∀ id ∈ s.registered, s.streamType id = .video → s.base.gotAVideoStream

/-- What the flags say, in every state that is reached. -/
structure Sound (policy : MasterClock) (s : Masters) : Prop where
  nodup : s.registered.Nodup
  oneMaster : ∀ {a b}, s.IsMaster a → s.IsMaster b → a = b
  master : s.gotAMasterClock → ∃ id, s.IsMaster id
  notBoth : s.gotAMasterClock → s.gotAnAlternateMasterClock = false
  alternate : s.gotAnAlternateMasterClock → ∃ id, s.alternateMasterContext = some id ∧
    s.IsMaster id ∧ policy.isFor (s.streamType id) = false
  flagged : ∀ {id}, s.IsMaster id → s.gotAMasterClock ∨ s.gotAnAlternateMasterClock
  adjusting : s.Adjusting

theorem reset_sound (policy : MasterClock) : reset.Sound policy where
  nodup := List.nodup_nil
  oneMaster := fun h => absurd h.1 List.not_mem_nil
  master := fun h => absurd h Bool.false_ne_true
  notBoth := fun _ => rfl
  alternate := fun h => absurd h Bool.false_ne_true
  flagged := fun h => absurd h.1 List.not_mem_nil
  adjusting :=
    { isVideo := fun _ h => absurd h List.not_mem_nil
      oneAdjusts := fun h => absurd h.1 List.not_mem_nil
      gotVideo := ⟨fun h => absurd h Bool.false_ne_true, fun ⟨_, h⟩ => absurd h.1 List.not_mem_nil⟩
      videoAdjusts := fun h => absurd h.1 List.not_mem_nil
      video := fun _ h => absurd h List.not_mem_nil }

/-! ## Registration -/

section

variable {policy : MasterClock} {s : Masters} {id : Nat} {type : StreamType}

theorem dropAlternate_streams (s : Masters) (possible : Bool) :
    (s.dropAlternate possible).base = s.base ∧ (s.dropAlternate possible).streamType = s.streamType ∧
      (s.dropAlternate possible).gotAMasterClock = s.gotAMasterClock := by
  unfold dropAlternate
  split
  · exact ⟨rfl, rfl, rfl⟩
  · exact ⟨rfl, rfl, rfl⟩

theorem takeMaster_streams (s : Masters) (id : Nat) (possible : Bool) :
    (s.takeMaster id possible).base = s.base ∧ (s.takeMaster id possible).streamType = s.streamType := by
  unfold takeMaster
  split
  · exact ⟨rfl, rfl⟩
  · exact ⟨rfl, rfl⟩

theorem takeAlternate_streams (s : Masters) (id : Nat) (possible : Bool) :
    (s.takeAlternate id possible).base = s.base ∧
      (s.takeAlternate id possible).streamType = s.streamType := by
  unfold takeAlternate
  split
  · exact ⟨rfl, rfl⟩
  · exact ⟨rfl, rfl⟩

theorem registerStream_of_mem (h : id ∈ s.registered) : s.registerStream policy id type = s :=
  if_pos h

theorem registerStream_streams (policy : MasterClock) (type : StreamType) (hnew : id ∉ s.registered) :
    (s.registerStream policy id type).base = s.base.registerStream id (type = .video) ∧
      (s.registerStream policy id type).streamType = Function.update s.streamType id type := by
  unfold registerStream
  rw [if_neg hnew]
  simp only
  rw [(takeAlternate_streams _ _ _).1, (takeAlternate_streams _ _ _).2, (takeMaster_streams _ _ _).1,
    (takeMaster_streams _ _ _).2]
  unfold add
  rw [(dropAlternate_streams _ _).1, (dropAlternate_streams _ _).2.1]
  exact ⟨rfl, rfl⟩

theorem registered_registerStream (policy : MasterClock) (type : StreamType)
    (hnew : id ∉ s.registered) :
    (s.registerStream policy id type).registered = id :: s.registered := by
  show (s.registerStream policy id type).base.coordinatedContexts = _
  rw [(registerStream_streams policy type hnew).1]
  unfold Base.registerStream
  rw [if_neg hnew]

/-- The new stream is the master, real or alternate, or the master stays. -/
inductive Chosen (policy : MasterClock) (s : Masters) (id : Nat) (type : StreamType)
    (t : Masters) : Prop where
  | real (hfor : policy.isFor type) (hnone : s.gotAMasterClock = false)
      (hmaster : ∀ a ∈ t.registered, t.clockMaster a = decide (a = id))
      (hgot : t.gotAMasterClock = true) (halternate : t.gotAnAlternateMasterClock = false)
  | alternate (hfor : policy.isFor type = false) (hnone : s.gotAMasterClock = false)
      (hnoAlternate : s.gotAnAlternateMasterClock = false)
      (hmaster : ∀ a ∈ t.registered, t.clockMaster a = decide (a = id))
      (hgot : t.gotAMasterClock = false) (halternate : t.gotAnAlternateMasterClock = true)
      (hcontext : t.alternateMasterContext = some id)
  | same (hfor : policy.isFor type → s.gotAMasterClock)
      (hsome : s.gotAMasterClock ∨ s.gotAnAlternateMasterClock)
      (hmaster : ∀ a ∈ t.registered, t.clockMaster a = (decide (a ≠ id) && s.clockMaster a))
      (hgot : t.gotAMasterClock = s.gotAMasterClock)
      (halternate : t.gotAnAlternateMasterClock = s.gotAnAlternateMasterClock)
      (hcontext : t.alternateMasterContext = s.alternateMasterContext)

theorem Sound.noMaster (hs : s.Sound policy) (hgot : s.gotAMasterClock = false)
    (halternate : s.gotAnAlternateMasterClock = false) : ∀ a ∈ s.registered, s.clockMaster a = false := by
  intro a ha
  by_contra hmaster
  rcases hs.flagged ⟨ha, Bool.eq_true_of_not_eq_false hmaster⟩ with h | h
  · exact absurd (h.symm.trans hgot) (by simp)
  · exact absurd (h.symm.trans halternate) (by simp)

theorem dropAlternate_noMaster (hs : s.Sound policy) (hgot : s.gotAMasterClock = false) :
    ∀ a ∈ s.registered, (s.dropAlternate true).clockMaster a = false := by
  intro a ha
  unfold dropAlternate
  split
  · next halternate =>
    obtain ⟨m, hm, hmaster, -⟩ := hs.alternate ((Bool.and_eq_true _ _).mp halternate).2
    simp only
    split
    · rfl
    · next hne =>
      -- it is not the alternate, so it is not the master
      by_contra htrue
      have heq := hs.oneMaster ⟨ha, Bool.eq_true_of_not_eq_false htrue⟩ hmaster
      exact hne (heq ▸ hm)
  · next halternate =>
    refine hs.noMaster hgot ?_ a ha
    simpa using halternate

theorem dropAlternate_flag (s : Masters) : (s.dropAlternate true).gotAnAlternateMasterClock = false := by
  unfold dropAlternate
  split
  · rfl
  · next h => simpa using h

variable (type) in
theorem registerStream_chosen (hs : s.Sound policy) (hpolicy : policy ≠ .systemClockMaster)
    (hnew : id ∉ s.registered) : Chosen policy s id type (s.registerStream policy id type) := by
  have hregistered := registered_registerStream policy type hnew
  -- the contexts before
  have hold : ∀ a ∈ (s.registerStream policy id type).registered, a ≠ id → a ∈ s.registered := by
    intro a ha hne
    rw [hregistered] at ha
    exact (List.mem_cons.mp ha).resolve_left hne
  have hpossible : decide (policy ≠ .systemClockMaster) = true := decide_eq_true hpolicy
  revert hold
  unfold registerStream
  rw [if_neg hnew, hpossible]
  simp only
  cases hfor : policy.isFor type with
  | true =>
    cases hgot : s.gotAMasterClock with
    | true =>
      -- there is a real master already
      have hdrop : s.dropAlternate true = s := by
        unfold dropAlternate
        rw [hs.notBoth hgot]
        rfl
      have hmaster : (s.add id type).takeMaster id true = s.add id type := by
        unfold takeMaster add setClockMaster
        simp only [hgot]
        rfl
      have hnot : (s.add id type).takeAlternate id true = s.add id type := by
        unfold takeAlternate add setClockMaster
        simp only [hgot]
        rfl
      rw [hdrop, hmaster, hnot]
      intro _
      refine .same (fun _ => hgot) (.inl hgot) (fun a _ => ?_) rfl rfl rfl
      by_cases ha : a = id
      · rw [decide_eq_false (not_not.mpr ha), Bool.false_and, ha]
        exact Function.update_self _ _ _
      · rw [decide_eq_true ha, Bool.true_and]
        exact Function.update_of_ne ha _ _
    | false =>
      obtain ⟨-, -, hflag⟩ := dropAlternate_streams s true
      have htake : ((s.dropAlternate true).add id type).takeMaster id true
          = { ((s.dropAlternate true).add id type).setClockMaster id true with
              gotAMasterClock := true } := by
        unfold takeMaster
        rw [if_pos]
        show (!(s.dropAlternate true).gotAMasterClock && true) = true
        rw [hflag, hgot]
        rfl
      rw [htake]
      unfold takeAlternate
      simp only [Bool.not_true, Bool.false_and, Bool.false_eq_true, if_false]
      intro hold
      refine .real hfor hgot (fun a ha => ?_) rfl (dropAlternate_flag s)
      by_cases hid : a = id
      · rw [decide_eq_true hid, hid]
        exact Function.update_self _ _ _
      · rw [decide_eq_false hid]
        show Function.update (Function.update (s.dropAlternate true).clockMaster id false) id true a = _
        rw [Function.update_of_ne hid, Function.update_of_ne hid]
        exact dropAlternate_noMaster hs hgot a (hold a ha hid)
  | false =>
    have hdrop : s.dropAlternate false = s := rfl
    have hmaster : (s.add id type).takeMaster id false = s.add id type := by
      unfold takeMaster
      rw [Bool.and_false]
      rfl
    rw [hdrop, hmaster]
    unfold takeAlternate
    split
    · next hneither =>
      have hflags : s.gotAMasterClock = false ∧ s.gotAnAlternateMasterClock = false := by
        simpa [add, setClockMaster] using hneither
      intro hold
      refine .alternate hfor hflags.1 hflags.2 (fun a ha => ?_) hflags.1 rfl rfl
      by_cases hid : a = id
      · rw [decide_eq_true hid, hid]
        exact Function.update_self _ _ _
      · rw [decide_eq_false hid]
        show Function.update (Function.update s.clockMaster id false) id true a = _
        rw [Function.update_of_ne hid, Function.update_of_ne hid]
        exact hs.noMaster hflags.1 hflags.2 a (hold a ha hid)
    · next hsome =>
      have hflags : s.gotAMasterClock ∨ s.gotAnAlternateMasterClock := by
        by_contra hneither
        simp only [not_or, Bool.not_eq_true] at hneither
        exact hsome (by simp [add, setClockMaster, hneither])
      intro _
      refine .same (fun h => absurd (h.symm.trans hfor) (by simp)) hflags (fun a _ => ?_) rfl rfl rfl
      by_cases ha : a = id
      · rw [decide_eq_false (not_not.mpr ha), Bool.false_and, ha]
        exact Function.update_self _ _ _
      · rw [decide_eq_true ha, Bool.true_and]
        exact Function.update_of_ne ha _ _

variable (policy type) in
theorem mayAdjust_registerStream (hnew : id ∉ s.registered) {a : Nat} :
    (s.registerStream policy id type).MayAdjust a ↔
      (a = id ∧ s.base.gotAVideoStream = false ∧ type = .video) ∨ s.MayAdjust a := by
  unfold MayAdjust
  rw [registered_registerStream policy type hnew, (registerStream_streams policy type hnew).1]
  unfold Base.registerStream
  rw [if_neg hnew]
  show _ ∧ (Function.update s.base.context id _ a).allowedToAdjustMappingBase = true ↔ _
  by_cases ha : a = id
  · subst ha
    rw [Function.update_self]
    simp [hnew]
  · rw [Function.update_of_ne ha]
    simp [ha]

variable (policy type) in
theorem gotAVideoStream_registerStream (hnew : id ∉ s.registered) :
    (s.registerStream policy id type).base.gotAVideoStream
      = (s.base.gotAVideoStream || decide (type = .video)) := by
  rw [(registerStream_streams policy type hnew).1]
  unfold Base.registerStream
  rw [if_neg hnew]

variable (policy type) in
theorem streamType_registerStream (hnew : id ∉ s.registered) (a : Nat) :
    (s.registerStream policy id type).streamType a = if a = id then type else s.streamType a := by
  rw [(registerStream_streams policy type hnew).2]
  exact Function.update_apply _ _ _ _

theorem Chosen.isMaster_same {t : Masters} (hregistered : t.registered = id :: s.registered)
    (hmaster : ∀ a ∈ t.registered, t.clockMaster a = (decide (a ≠ id) && s.clockMaster a))
    (hnew : id ∉ s.registered) {a : Nat} : t.IsMaster a ↔ s.IsMaster a := by
  constructor
  · intro h
    have hclock := (hmaster a h.1).symm.trans h.2
    obtain ⟨hne, hclock⟩ := (Bool.and_eq_true _ _).mp hclock
    have hmem := hregistered ▸ h.1
    exact ⟨(List.mem_cons.mp hmem).resolve_left (of_decide_eq_true hne), hclock⟩
  · intro h
    have hmem : a ∈ t.registered := hregistered ▸ List.mem_cons_of_mem _ h.1
    have hne : a ≠ id := fun heq => hnew (heq ▸ h.1)
    refine ⟨hmem, (hmaster a hmem).trans ?_⟩
    rw [decide_eq_true hne, Bool.true_and]
    exact h.2

theorem Chosen.isMaster_new {t : Masters} (hregistered : t.registered = id :: s.registered)
    (hmaster : ∀ a ∈ t.registered, t.clockMaster a = decide (a = id)) {a : Nat} :
    t.IsMaster a ↔ a = id := by
  constructor
  · intro h
    exact of_decide_eq_true ((hmaster a h.1).symm.trans h.2)
  · rintro rfl
    have hmem : a ∈ t.registered := hregistered ▸ List.mem_cons_self
    exact ⟨hmem, (hmaster a hmem).trans (decide_eq_true rfl)⟩

theorem mem_registerStream (policy : MasterClock) (type : StreamType) (hnew : id ∉ s.registered)
    {a : Nat} (ha : a ∈ (s.registerStream policy id type).registered) :
    a = id ∧ (s.registerStream policy id type).streamType a = type ∨
      a ∈ s.registered ∧ (s.registerStream policy id type).streamType a = s.streamType a := by
  have htype := streamType_registerStream policy type hnew a
  rw [registered_registerStream policy type hnew] at ha
  rcases List.mem_cons.mp ha with heq | hmem
  · exact .inl ⟨heq, htype.trans (if_pos heq)⟩
  · exact .inr ⟨hmem, htype.trans (if_neg (ne_of_mem_of_not_mem hmem hnew))⟩

theorem registerStream_adjusting (policy : MasterClock) (type : StreamType) (hs : s.Adjusting)
    (hnew : id ∉ s.registered) : (s.registerStream policy id type).Adjusting := by
  have hadjust := fun a => mayAdjust_registerStream policy type hnew (a := a)
  have hvideo := gotAVideoStream_registerStream policy type hnew
  refine ⟨fun a ha => ?_, fun {a b} ha hb => ?_, ?_, fun {a} ha => ?_, fun a ha hav => ?_⟩
  · have hcontext : (s.registerStream policy id type).base.context a
        = if a = id then ⟨decide (type = .video), false, false, 0, false, false, 0, 0, 0, 0,
            !s.base.gotAVideoStream && decide (type = .video), invalidTime⟩ else s.base.context a := by
      rw [(registerStream_streams policy type hnew).1]
      unfold Base.registerStream
      rw [if_neg hnew]
      exact Function.update_apply _ _ _ _
    rcases mem_registerStream policy type hnew ha with ⟨heq, htype⟩ | ⟨hmem, htype⟩
    · rw [htype, hcontext, if_pos heq]
    · rw [htype, hcontext, if_neg (ne_of_mem_of_not_mem hmem hnew)]
      exact hs.isVideo a hmem
  · rcases (hadjust a).mp ha with ⟨hida, hnone, -⟩ | hsa
    · rcases (hadjust b).mp hb with ⟨hidb, -, -⟩ | hsb
      · exact hida.trans hidb.symm
      · exact absurd ((hs.gotVideo.mpr ⟨b, hsb⟩).symm.trans hnone) (by simp)
    · rcases (hadjust b).mp hb with ⟨-, hnone, -⟩ | hsb
      · exact absurd ((hs.gotVideo.mpr ⟨a, hsa⟩).symm.trans hnone) (by simp)
      · exact hs.oneAdjusts hsa hsb
  · rw [hvideo]
    constructor
    · intro h
      cases hgot : s.base.gotAVideoStream with
      | true =>
        obtain ⟨a, ha⟩ := hs.gotVideo.mp hgot
        exact ⟨a, (hadjust a).mpr (.inr ha)⟩
      | false =>
        rw [hgot, Bool.false_or] at h
        exact ⟨id, (hadjust id).mpr (.inl ⟨rfl, hgot, of_decide_eq_true h⟩)⟩
    · rintro ⟨a, ha⟩
      rcases (hadjust a).mp ha with ⟨-, -, hav⟩ | hsa
      · rw [decide_eq_true hav, Bool.or_true]
      · rw [hs.gotVideo.mpr ⟨a, hsa⟩, Bool.true_or]
  · have htype := streamType_registerStream policy type hnew a
    rcases (hadjust a).mp ha with ⟨heq, -, hav⟩ | hsa
    · rw [htype, if_pos heq]
      exact hav
    · rw [htype, if_neg (ne_of_mem_of_not_mem hsa.1 hnew)]
      exact hs.videoAdjusts hsa
  · rw [hvideo]
    rcases mem_registerStream policy type hnew ha with ⟨-, htype⟩ | ⟨hmem, htype⟩
    · rw [decide_eq_true (htype.symm.trans hav), Bool.or_true]
    · rw [hs.video a hmem (htype.symm.trans hav), Bool.true_or]

theorem registerStream_sound (hs : s.Sound policy) (hpolicy : policy ≠ .systemClockMaster)
    (hnew : id ∉ s.registered) (type : StreamType) : (s.registerStream policy id type).Sound policy := by
  have hregistered := registered_registerStream policy type hnew
  have hnodup : (s.registerStream policy id type).registered.Nodup := by
    rw [hregistered]
    exact List.nodup_cons.mpr ⟨hnew, hs.nodup⟩
  have hadjusting := registerStream_adjusting policy type hs.adjusting hnew
  have htypes := fun a => streamType_registerStream policy type hnew a
  cases registerStream_chosen type hs hpolicy hnew with
  | real hfor hnone hmaster hgot halternate =>
    have hnow := fun a => Chosen.isMaster_new hregistered hmaster (a := a)
    exact ⟨hnodup, fun ha hb => ((hnow _).mp ha).trans ((hnow _).mp hb).symm,
      fun _ => ⟨id, (hnow id).mpr rfl⟩, fun _ => halternate,
      fun h => absurd (h.symm.trans halternate) (by simp), fun _ => .inl hgot, hadjusting⟩
  | alternate hfor hnone hnoAlternate hmaster hgot halternate hcontext =>
    have hnow := fun a => Chosen.isMaster_new hregistered hmaster (a := a)
    refine ⟨hnodup, fun ha hb => ((hnow _).mp ha).trans ((hnow _).mp hb).symm,
      fun _ => ⟨id, (hnow id).mpr rfl⟩, fun h => absurd (h.symm.trans hgot) (by simp),
      fun _ => ⟨id, hcontext, (hnow id).mpr rfl, ?_⟩, fun _ => .inr halternate, hadjusting⟩
    rw [htypes, if_pos rfl]
    exact hfor
  | same hfor hsome hmaster hgot halternate hcontext =>
    have hnow := fun a => Chosen.isMaster_same hregistered hmaster hnew (a := a)
    refine ⟨hnodup, fun ha hb => hs.oneMaster ((hnow _).mp ha) ((hnow _).mp hb), fun h => ?_,
      fun h => halternate.trans (hs.notBoth (hgot.symm.trans h)), fun h => ?_, fun _ => ?_, hadjusting⟩
    · obtain ⟨m, hm⟩ := hs.master (hgot.symm.trans h)
      exact ⟨m, (hnow m).mpr hm⟩
    · obtain ⟨m, hm, hmaster, htype⟩ := hs.alternate (halternate.symm.trans h)
      refine ⟨m, hcontext.trans hm, (hnow m).mpr hmaster, ?_⟩
      rw [htypes, if_neg (ne_of_mem_of_not_mem hmaster.1 hnew)]
      exact htype
    · exact hsome.imp hgot.trans halternate.trans

end

/-! ## De-registration -/

section

variable {policy : MasterClock} {s : Masters} {id : Nat}

/-- The stream is registered, and not in `SynchronizeStreams`. -/
def MayLeave (s : Masters) (id : Nat) : Prop :=
  id ∈ s.registered ∧ !(s.base.context id).inStartupDelay ∧ !(s.base.context id).inSynchronizeFn

theorem promote_streams (s : Masters) (id : Nat) : (s.promote id).streamType = s.streamType := by
  unfold promote
  split
  · simp only
    split
    · rfl
    · rfl
  · rfl

theorem deRegisterStream_of_mayLeave (h : s.MayLeave id) :
    s.deRegisterStream id = { s.promote id with base := s.base.deRegisterStream id } :=
  if_pos h

theorem deRegisterStream_of_not_mayLeave (h : ¬ s.MayLeave id) : s.deRegisterStream id = s :=
  if_neg h

theorem base_deRegisterStream (h : s.MayLeave id) :
    (s.base.deRegisterStream id).coordinatedContexts = s.registered.erase id ∧
      ((s.base.context id).allowedToAdjustMappingBase = false →
        (s.base.deRegisterStream id).context = s.base.context ∧
          (s.base.deRegisterStream id).gotAVideoStream = s.base.gotAVideoStream) ∧
      ((s.base.context id).allowedToAdjustMappingBase = true →
        (∀ other, (s.registered.erase id).find? (fun other => (s.base.context other).video) = some other →
          (s.base.deRegisterStream id).gotAVideoStream = true ∧
            (s.base.deRegisterStream id).context = Function.update s.base.context other
              { s.base.context other with allowedToAdjustMappingBase := true }) ∧
        ((s.registered.erase id).find? (fun other => (s.base.context other).video) = none →
          (s.base.deRegisterStream id).gotAVideoStream = false ∧
            (s.base.deRegisterStream id).context = s.base.context)) := by
  have hleave := h
  unfold MayLeave at hleave
  unfold Base.deRegisterStream
  rw [if_pos hleave]
  simp only
  split
  · next hallowed =>
    refine ⟨trivial, fun hnot => absurd (hallowed.symm.trans hnot) (by simp), fun _ => ⟨?_, ?_⟩⟩
    · intro other hfind
      rw [hfind]
      exact ⟨rfl, rfl⟩
    · intro hfind
      rw [hfind]
      exact ⟨rfl, rfl⟩
  · next hallowed => exact ⟨trivial, fun _ => ⟨rfl, rfl⟩, fun h => absurd h hallowed⟩

theorem registered_deRegisterStream (h : s.MayLeave id) :
    (s.deRegisterStream id).registered = s.registered.erase id := by
  rw [deRegisterStream_of_mayLeave h]
  exact (base_deRegisterStream h).1

theorem streamType_deRegisterStream (h : s.MayLeave id) :
    (s.deRegisterStream id).streamType = s.streamType := by
  rw [deRegisterStream_of_mayLeave h]
  exact promote_streams s id

theorem deRegisterStream_adjusting (hs : s.Adjusting) (hnodup : s.registered.Nodup)
    (h : s.MayLeave id) : (s.deRegisterStream id).Adjusting := by
  have hregistered := registered_deRegisterStream h
  have htypes := streamType_deRegisterStream h
  have hbase : (s.deRegisterStream id).base = s.base.deRegisterStream id := by
    rw [deRegisterStream_of_mayLeave h]
  obtain ⟨-, hkept, hlost⟩ := base_deRegisterStream h
  have hmem : ∀ {a}, a ∈ s.registered.erase id ↔ a ≠ id ∧ a ∈ s.registered :=
    hnodup.mem_erase_iff
  have hadjust : ∀ {a}, (s.deRegisterStream id).MayAdjust a ↔ a ∈ s.registered.erase id ∧
      ((s.base.deRegisterStream id).context a).allowedToAdjustMappingBase = true := by
    intro a
    unfold MayAdjust
    rw [hregistered, hbase]
  cases hallowed : (s.base.context id).allowedToAdjustMappingBase with
  | false =>
    obtain ⟨hcontext, hgot⟩ := hkept hallowed
    rw [hcontext] at hadjust
    -- the stream that leaves is not the one
    have hsame : ∀ {a}, (s.deRegisterStream id).MayAdjust a ↔ s.MayAdjust a := by
      intro a
      rw [hadjust, hmem]
      constructor
      · exact fun ⟨⟨_, ha⟩, hadj⟩ => ⟨ha, hadj⟩
      · intro ha
        refine ⟨⟨?_, ha.1⟩, ha.2⟩
        rintro rfl
        exact absurd (ha.2.symm.trans hallowed) (by simp)
    refine ⟨fun a ha => ?_, fun ha hb => hs.oneAdjusts (hsame.mp ha) (hsame.mp hb), ?_, fun ha => ?_,
      fun a ha hav => ?_⟩
    · rw [hbase, hcontext, htypes]
      rw [hregistered] at ha
      exact hs.isVideo a (hmem.mp ha).2
    · rw [hbase, hgot, hs.gotVideo]
      exact exists_congr fun _ => hsame.symm
    · rw [htypes]
      exact hs.videoAdjusts (hsame.mp ha)
    · rw [hregistered] at ha
      rw [hbase, hgot]
      rw [htypes] at hav
      exact hs.video a (hmem.mp ha).2 hav
  | true =>
    have hlost := hlost hallowed
    have honly : ∀ {a}, a ∈ s.registered.erase id →
        (s.base.context a).allowedToAdjustMappingBase = false := by
      intro a ha
      by_contra hadj
      have heq := hs.oneAdjusts ⟨(hmem.mp ha).2, Bool.eq_true_of_not_eq_false hadj⟩ ⟨h.1, hallowed⟩
      exact (hmem.mp ha).1 heq
    cases hfind : (s.registered.erase id).find? fun other => (s.base.context other).video with
    | some other =>
      obtain ⟨hgot, hcontext⟩ := hlost.1 other hfind
      have hother := List.mem_of_find?_eq_some hfind
      have hvideo : s.streamType other = .video := by
        have hfound := List.find?_some hfind
        rw [hs.isVideo other (hmem.mp hother).2] at hfound
        exact of_decide_eq_true hfound
      rw [hcontext] at hadjust
      have hsame : ∀ {a}, (s.deRegisterStream id).MayAdjust a ↔ a = other := by
        intro a
        rw [hadjust]
        constructor
        · rintro ⟨ha, hadj⟩
          by_contra hne
          rw [Function.update_of_ne hne] at hadj
          exact absurd (hadj.symm.trans (honly ha)) (by simp)
        · rintro rfl
          exact ⟨hother, by rw [Function.update_self]⟩
      refine ⟨fun a ha => ?_, fun ha hb => (hsame.mp ha).trans (hsame.mp hb).symm, ?_, fun ha => ?_,
        fun _ _ _ => ?_⟩
      · rw [hregistered] at ha
        rw [hbase, hcontext, htypes, ← hs.isVideo a (hmem.mp ha).2]
        by_cases hne : a = other
        · rw [hne, Function.update_self]
        · rw [Function.update_of_ne hne]
      · rw [hbase]
        exact iff_of_true hgot ⟨other, hsame.mpr rfl⟩
      · rw [htypes, hsame.mp ha]
        exact hvideo
      · rw [hbase]
        exact hgot
    | none =>
      obtain ⟨hgot, hcontext⟩ := hlost.2 hfind
      rw [hcontext] at hadjust
      have hnone : ∀ {a}, ¬ (s.deRegisterStream id).MayAdjust a := by
        intro a ha
        obtain ⟨ha, hadj⟩ := hadjust.mp ha
        exact absurd (hadj.symm.trans (honly ha)) (by simp)
      refine ⟨fun a ha => ?_, fun ha => absurd ha hnone, ?_, fun ha => absurd ha hnone,
        fun a ha hav => ?_⟩
      · rw [hregistered] at ha
        rw [hbase, hcontext, htypes]
        exact hs.isVideo a (hmem.mp ha).2
      · rw [hbase, hgot]
        exact iff_of_false Bool.false_ne_true fun ⟨_, ha⟩ => hnone ha
      · -- no video stream is left
        rw [hregistered] at ha
        rw [htypes] at hav
        have hnot := List.find?_eq_none.mp hfind a ha
        rw [hs.isVideo a (hmem.mp ha).2] at hnot
        exact absurd (decide_eq_true hav) hnot

/-- The master stays, or another stream of its type is it, or there is none. -/
inductive Promoted (s : Masters) (id : Nat) (t : Masters) : Prop where
  | same (hmaster : ∀ a, t.IsMaster a ↔ s.IsMaster a) (hgot : t.gotAMasterClock = s.gotAMasterClock)
      (halternate : t.gotAnAlternateMasterClock = s.gotAnAlternateMasterClock)
      (hcontext : t.alternateMasterContext = s.alternateMasterContext)
  | other (other : Nat) (hwas : s.IsMaster id) (htype : s.streamType other = s.streamType id)
      (hmaster : ∀ a, t.IsMaster a ↔ a = other) (hgot : t.gotAMasterClock = true)
      (halternate : t.gotAnAlternateMasterClock = false)
  | none (hwas : s.IsMaster id) (htypes : ∀ a ∈ t.registered, s.streamType a ≠ s.streamType id)
      (hmaster : ∀ a, ¬ t.IsMaster a) (hgot : t.gotAMasterClock = false)
      (halternate : t.gotAnAlternateMasterClock = false)

theorem deRegisterStream_promoted (hs : s.Sound policy) (h : s.MayLeave id) :
    Promoted s id (s.deRegisterStream id) := by
  have hregistered := registered_deRegisterStream h
  have hmem : ∀ {a}, a ∈ s.registered.erase id ↔ a ≠ id ∧ a ∈ s.registered :=
    hs.nodup.mem_erase_iff
  have hisMaster : ∀ a, (s.deRegisterStream id).IsMaster a ↔
      a ∈ s.registered.erase id ∧ (s.promote id).clockMaster a = true := by
    intro a
    unfold IsMaster
    rw [hregistered, deRegisterStream_of_mayLeave h]
  have hflags : (s.deRegisterStream id).gotAMasterClock = (s.promote id).gotAMasterClock ∧
      (s.deRegisterStream id).gotAnAlternateMasterClock = (s.promote id).gotAnAlternateMasterClock ∧
      (s.deRegisterStream id).alternateMasterContext = (s.promote id).alternateMasterContext := by
    rw [deRegisterStream_of_mayLeave h]
    exact ⟨rfl, rfl, rfl⟩
  obtain ⟨hgot, halternate, hcontext⟩ := hflags
  unfold promote at hisMaster hgot halternate hcontext
  cases hclock : s.clockMaster id with
  | false =>
    rw [hclock] at hisMaster hgot halternate hcontext
    refine .same (fun a => ?_) hgot halternate hcontext
    rw [hisMaster, hmem]
    constructor
    · exact fun ⟨⟨_, ha⟩, hmaster⟩ => ⟨ha, hmaster⟩
    · intro ha
      refine ⟨⟨?_, ha.1⟩, ha.2⟩
      rintro rfl
      exact absurd (ha.2.symm.trans hclock) (by simp)
  | true =>
    have hwas : s.IsMaster id := ⟨h.1, hclock⟩
    have honly : ∀ {a}, a ∈ s.registered.erase id → s.clockMaster a = false := by
      intro a ha
      by_contra hmaster
      have heq := hs.oneMaster ⟨(hmem.mp ha).2, Bool.eq_true_of_not_eq_false hmaster⟩ hwas
      exact (hmem.mp ha).1 heq
    rw [hclock] at hisMaster hgot halternate hcontext
    simp only [if_true] at hisMaster hgot halternate hcontext
    cases hfind : (s.registered.erase id).find? fun other => s.streamType other = s.streamType id with
    | some other =>
      rw [hfind] at hisMaster hgot halternate hcontext
      have hother := List.mem_of_find?_eq_some hfind
      have htype := List.find?_some hfind
      refine .other other hwas (of_decide_eq_true htype) (fun a => ?_) hgot halternate
      rw [hisMaster]
      constructor
      · rintro ⟨ha, hmaster⟩
        by_contra hne
        have hsame : Function.update s.clockMaster other true a = s.clockMaster a :=
          Function.update_of_ne hne _ _
        exact absurd ((hmaster.symm.trans hsame).trans (honly ha)) (by simp)
      · rintro rfl
        exact ⟨hother, Function.update_self _ _ _⟩
    | none =>
      rw [hfind] at hisMaster hgot halternate hcontext
      refine .none hwas (fun a ha htype => ?_) (fun a ha => ?_) hgot halternate
      · rw [hregistered] at ha
        exact List.find?_eq_none.mp hfind a ha (decide_eq_true htype)
      · obtain ⟨hleft, hmaster⟩ := (hisMaster a).mp ha
        exact absurd (hmaster.symm.trans (honly hleft)) (by simp)

theorem deRegisterStream_sound (hs : s.Sound policy) (h : s.MayLeave id) :
    (s.deRegisterStream id).Sound policy := by
  have hnodup : (s.deRegisterStream id).registered.Nodup := by
    rw [registered_deRegisterStream h]
    exact hs.nodup.erase id
  have hadjusting := deRegisterStream_adjusting hs.adjusting hs.nodup h
  cases deRegisterStream_promoted hs h with
  | same hmaster hgot halternate hcontext =>
    refine ⟨hnodup, fun ha hb => hs.oneMaster ((hmaster _).mp ha) ((hmaster _).mp hb), fun h => ?_,
      fun h => halternate.trans (hs.notBoth (hgot.symm.trans h)), fun hgotAlternate => ?_, fun ha => ?_,
      hadjusting⟩
    · obtain ⟨m, hm⟩ := hs.master (hgot.symm.trans h)
      exact ⟨m, (hmaster m).mpr hm⟩
    · obtain ⟨m, hm, hisMaster, htype⟩ := hs.alternate (halternate.symm.trans hgotAlternate)
      refine ⟨m, hcontext.trans hm, (hmaster m).mpr hisMaster, ?_⟩
      rw [streamType_deRegisterStream h]
      exact htype
    · exact (hs.flagged ((hmaster _).mp ha)).imp hgot.trans halternate.trans
  | other other hwas htype hmaster hgot halternate =>
    exact ⟨hnodup, fun ha hb => ((hmaster _).mp ha).trans ((hmaster _).mp hb).symm,
      fun _ => ⟨other, (hmaster other).mpr rfl⟩, fun _ => halternate,
      fun h => absurd (h.symm.trans halternate) (by simp), fun _ => .inl hgot, hadjusting⟩
  | none hwas htypes hmaster hgot halternate =>
    exact ⟨hnodup, fun ha => absurd ha (hmaster _), fun h => absurd (h.symm.trans hgot) (by simp),
      fun _ => halternate, fun h => absurd (h.symm.trans halternate) (by simp),
      fun ha => absurd ha (hmaster _), hadjusting⟩

end

/-! ## Runs -/

section

variable {policy : MasterClock} {s : Masters}

theorem MasterClock.isFor_unique {policy : MasterClock} {a b : StreamType} (ha : policy.isFor a)
    (hb : policy.isFor b) : a = b := by
  cases policy <;> simp_all [MasterClock.isFor]

theorem Sound.adjusts (hs : s.Sound policy) (h : ∃ id ∈ s.registered, s.streamType id = .video) :
    ∃ id, s.MayAdjust id := by
  obtain ⟨id, hid, hvideo⟩ := h
  exact hs.adjusting.gotVideo.mp (hs.adjusting.video id hid hvideo)

theorem Sound.selected_iff (hs : s.Sound policy) :
    s.Selected policy ↔ ((∃ id ∈ s.registered, policy.isFor (s.streamType id)) →
      (∃ id, s.IsMaster id) ∧ ∀ id, s.IsMaster id → policy.isFor (s.streamType id)) :=
  ⟨fun h => h.ofType, fun h => ⟨hs.oneMaster, hs.adjusting.oneAdjusts, hs.adjusts, h⟩⟩

theorem step_sound (hpolicy : policy ≠ .systemClockMaster) (hs : s.Sound policy) (event : Event) :
    (step policy s event).Sound policy := by
  cases event with
  | registerStream id type =>
    by_cases hnew : id ∈ s.registered
    · show (s.registerStream policy id type).Sound policy
      rw [registerStream_of_mem hnew]
      exact hs
    · exact registerStream_sound hs hpolicy hnew type
  | deRegisterStream id =>
    by_cases hleave : s.MayLeave id
    · exact deRegisterStream_sound hs hleave
    · show (s.deRegisterStream id).Sound policy
      rw [deRegisterStream_of_not_mayLeave hleave]
      exact hs

theorem registerStream_selected_iff (hs : s.Sound policy) (hsel : s.Selected policy)
    (hpolicy : policy ≠ .systemClockMaster) {id : Nat} (hnew : id ∉ s.registered)
    (type : StreamType) :
    (s.registerStream policy id type).Selected policy ↔ Minds policy s (.registerStream id type) := by
  rw [(registerStream_sound hs hpolicy hnew type).selected_iff]
  have hregistered := registered_registerStream policy type hnew
  have htypes := fun a => streamType_registerStream policy type hnew a
  have hmem : id ∈ (s.registerStream policy id type).registered := hregistered ▸ List.mem_cons_self
  have hkept : ∀ {a}, a ∈ s.registered →
      (s.registerStream policy id type).streamType a = s.streamType a :=
    fun ha => (htypes _).trans (if_neg (ne_of_mem_of_not_mem ha hnew))
  cases registerStream_chosen type hs hpolicy hnew with
  | real hfor hnone hmaster hgot halternate =>
    have hnow := fun a => Chosen.isMaster_new hregistered hmaster (a := a)
    refine iff_of_true (fun _ => ⟨⟨id, (hnow id).mpr rfl⟩, fun a ha => ?_⟩) fun _ _ hmaster => ?_
    · rw [(hnow a).mp ha, htypes, if_pos rfl]
      exact hfor
    · exact absurd (hmaster.symm.trans hnone) (by simp)
  | alternate hfor hnone hnoAlternate hmaster hgot halternate hcontext =>
    have hnone' : ∀ a ∈ s.registered, policy.isFor (s.streamType a) = false := by
      intro a ha
      by_contra hof
      -- without a master no stream of the policy's type was there
      obtain ⟨⟨m, hm⟩, -⟩ := hsel.ofType ⟨a, ha, Bool.eq_true_of_not_eq_false hof⟩
      exact absurd (hm.2.symm.trans (hs.noMaster hnone hnoAlternate m hm.1)) (by simp)
    refine iff_of_true (fun ⟨a, ha, hof⟩ => ?_) fun _ hof => absurd (hof.symm.trans hfor) (by simp)
    rcases mem_registerStream policy type hnew ha with ⟨-, htype⟩ | ⟨hmem, htype⟩
    · rw [htype] at hof
      exact absurd (hof.symm.trans hfor) (by simp)
    · rw [htype] at hof
      exact absurd (hof.symm.trans (hnone' a hmem)) (by simp)
  | same hfor hsome hmaster hgot halternate hcontext =>
    have hnow := fun a => Chosen.isMaster_same hregistered hmaster hnew (a := a)
    constructor
    · intro h _ hof _ m hm hmaster
      have hall := (h ⟨id, hmem, by rw [htypes, if_pos rfl]; exact hof⟩).2
      have := hall m ((hnow m).mpr ⟨hm, hmaster⟩)
      rwa [hkept hm] at this
    · intro hminds ⟨a, ha, hof⟩
      have hreal : (∃ m, s.IsMaster m) ∧ ∀ m, s.IsMaster m → policy.isFor (s.streamType m) := by
        rcases mem_registerStream policy type hnew ha with ⟨-, htype⟩ | ⟨hmem, htype⟩
        · rw [htype] at hof
          exact ⟨hs.master (hfor hof), fun m hm => hminds hnew hof (hfor hof) m hm.1 hm.2⟩
        · rw [htype] at hof
          exact hsel.ofType ⟨a, hmem, hof⟩
      obtain ⟨⟨m, hm⟩, hall⟩ := hreal
      refine ⟨⟨m, (hnow m).mpr hm⟩, fun b hb => ?_⟩
      have hsb := (hnow b).mp hb
      rw [hkept hsb.1]
      exact hall b hsb

theorem deRegisterStream_selected (hs : s.Sound policy) (hsel : s.Selected policy) {id : Nat}
    (h : s.MayLeave id) : (s.deRegisterStream id).Selected policy := by
  rw [(deRegisterStream_sound hs h).selected_iff, streamType_deRegisterStream h]
  have hleft : ∀ {a}, a ∈ (s.deRegisterStream id).registered → a ∈ s.registered := by
    intro a ha
    rw [registered_deRegisterStream h] at ha
    exact List.mem_of_mem_erase ha
  rintro ⟨a, ha, hof⟩
  obtain ⟨hsome, hall⟩ := hsel.ofType ⟨a, hleft ha, hof⟩
  cases deRegisterStream_promoted hs h with
  | same hmaster hgot halternate hcontext =>
    obtain ⟨m, hm⟩ := hsome
    exact ⟨⟨m, (hmaster m).mpr hm⟩, fun b hb => hall b ((hmaster b).mp hb)⟩
  | other other hwas htype hmaster hgot halternate =>
    -- the one before was of the policy's type, and so is the next
    refine ⟨⟨other, (hmaster other).mpr rfl⟩, fun b hb => ?_⟩
    rw [(hmaster b).mp hb, htype]
    exact hall id hwas
  | none hwas htypes hmaster hgot halternate =>
    exact absurd (MasterClock.isFor_unique hof (hall id hwas)) (htypes a ha)

theorem step_selected_iff (hpolicy : policy ≠ .systemClockMaster) (hs : s.Sound policy)
    (hsel : s.Selected policy) (event : Event) :
    (step policy s event).Selected policy ↔ Minds policy s event := by
  cases event with
  | registerStream id type =>
    by_cases hnew : id ∈ s.registered
    · refine iff_of_true ?_ fun h => absurd hnew h
      show (s.registerStream policy id type).Selected policy
      rw [registerStream_of_mem hnew]
      exact hsel
    · exact registerStream_selected_iff hs hsel hpolicy hnew type
  | deRegisterStream id =>
    refine iff_of_true ?_ trivial
    by_cases hleave : s.MayLeave id
    · exact deRegisterStream_selected hs hsel hleave
    · show (s.deRegisterStream id).Selected policy
      rw [deRegisterStream_of_not_mayLeave hleave]
      exact hsel

/-- The master is selected in every state of a run just where every registration of a
stream of the policy's type finds no master of another type that is taken for a real one. -/
theorem selected_iff_along (policy : MasterClock) (hpolicy : policy ≠ .systemClockMaster)
    (events : List Event) :
    (∀ before, before <+: events → (before.foldl (step policy) reset).Selected policy) ↔
      Along (step policy) (Minds policy) reset events := by
  refine Lib.forall_prefix_iff_along (I := Sound policy) (P := Selected policy)
    (fun event hs => step_sound hpolicy hs event)
    (fun event hs hsel => step_selected_iff hpolicy hs hsel event) events (reset_sound policy) ?_
  refine (reset_sound policy).selected_iff.mpr fun ⟨_, h, _⟩ => absurd h List.not_mem_nil

/-- An audio stream is the alternate until a video stream comes. -/
theorem selected_audio_video :
    ([Event.registerStream 1 .audio, .registerStream 2 .video, .deRegisterStream 1].foldl
      (step .videoClockMaster) reset).Selected .videoClockMaster :=
  (selected_iff_along .videoClockMaster (by decide)
    [.registerStream 1 .audio, .registerStream 2 .video, .deRegisterStream 1]).mpr (by decide) _
    (List.prefix_refl _)

/-- An audio stream that took the place of the alternate stays the master when a video
stream comes. -/
theorem not_selected_promoted :
    ¬ ∀ before, before <+: [Event.registerStream 1 .audio, .registerStream 2 .audio,
        .deRegisterStream 1, .registerStream 3 .video] →
      (before.foldl (step .videoClockMaster) reset).Selected .videoClockMaster :=
  fun h => absurd (((h _ (List.prefix_refl _)).ofType ⟨3, by decide, by decide⟩).2 2
    ⟨by decide, by decide⟩) (by decide)

end

end Masters

end Duckbox.OutputCoordinator
