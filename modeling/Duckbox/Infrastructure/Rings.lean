import Duckbox.BufferPool.ReferenceCounting
import Duckbox.Lib.Circular

/-!
# The rings

`RingGeneric_c`, `RingBlocking_c`, `RingProtected_c` and `RingUnprotected_c`: a
storage with an entry more than the ring is for, and two indices into it. They
differ in what they lock and signal, and in what `Extract` does with an empty ring:
it waits for an entry for ever, for some time or not at all.

> `rings_are_queues`: each is a queue of the capacity it was made for, if `Limit`,
> an `unsigned int`, can be one more than that.

What is written outside of `Storage` has no meaning here: the operation that would
is `none`.
-/

namespace Duckbox.Infrastructure

open BufferPool (UnsignedInt)
open Lib (Window nextCell)

/-- What an operation answers. `waits` is an `Extract` that comes back only once
something is inserted. -/
inductive RingAnswer (α : Type) where
  | ringNoError
  | ringTooManyEntries
  | ringNothingToGet
  | extracted (value : α)
  | nonEmpty (answer : Bool)
  | waits
deriving DecidableEq

/-- With a wait taken for what it comes to if nothing is inserted. -/
def RingAnswer.timeoutsAside {α : Type} : RingAnswer α → RingAnswer α
  | .waits => .ringNothingToGet
  | answer => answer

/-- The members that the four classes have in common. -/
structure RingMembers (α : Type) where
  limit : UnsignedInt
  nextExtract : UnsignedInt
  nextInsert : UnsignedInt
  storage : Nat → α

namespace RingMembers

variable {α : Type}

/-- What each constructor does, with the storage it allocated. -/
def created (maxEntries : UnsignedInt) (storage : Nat → α) : RingMembers α where
  limit := maxEntries + 1
  nextExtract := 0
  nextInsert := 0
  storage := storage

/-- `Next++; if( Next == Limit ) Next = 0`. -/
def advance (r : RingMembers α) (next : UnsignedInt) : UnsignedInt :=
  if next + 1 = r.limit then 0 else next + 1

/-- `Insert`, but for the lock and the signal. -/
def insert (r : RingMembers α) (value : α) : Option (RingAnswer α × RingMembers α) :=
  if r.nextInsert < r.limit then
    let oldNextInsert := r.nextInsert
    let r := { r with storage := Function.update r.storage r.nextInsert.toNat value }
    let r := { r with nextInsert := r.advance r.nextInsert }
    if r.nextInsert = r.nextExtract then
      some (.ringTooManyEntries, { r with nextInsert := oldNextInsert })
    else some (.ringNoError, r)
  else none

/-- What `Extract` does where there is something. -/
def take (r : RingMembers α) : Option (RingAnswer α × RingMembers α) :=
  if r.nextExtract < r.limit then
    some (.extracted (r.storage r.nextExtract.toNat),
      { r with nextExtract := r.advance r.nextExtract })
  else none

/-- `Flush`. -/
def flush (r : RingMembers α) : RingMembers α := { r with nextExtract := 0, nextInsert := 0 }

/-- `NonEmpty`. -/
def nonEmpty (r : RingMembers α) : Bool := r.nextExtract ≠ r.nextInsert

end RingMembers

/-! ## `Extract` of the classes -/

/-- `OS_INFINITE`. -/
abbrev osInfinite : UnsignedInt := 0xffffffff

variable {α : Type}

/-- `RingGeneric_c::Extract`: a wait that is not for ever ends with nothing to get. -/
def RingGeneric.extract (r : RingMembers α) (blockingPeriod : UnsignedInt) :
    Option (RingAnswer α × RingMembers α) :=
  if r.nextExtract = r.nextInsert ∧ blockingPeriod = osInfinite then some (.waits, r)
  else if r.nextExtract ≠ r.nextInsert then r.take
  else some (.ringNothingToGet, r)

/-- `RingBlocking_c::Extract`. -/
def RingBlocking.extract (r : RingMembers α) : Option (RingAnswer α × RingMembers α) :=
  if r.nextExtract ≠ r.nextInsert then r.take else some (.waits, r)

/-- `RingProtected_c::Extract`. -/
def RingProtected.extract (r : RingMembers α) : Option (RingAnswer α × RingMembers α) :=
  if r.nextExtract = r.nextInsert then some (.ringNothingToGet, r) else r.take

/-- `RingUnprotected_c::Extract`. -/
def RingUnprotected.extract (r : RingMembers α) : Option (RingAnswer α × RingMembers α) :=
  if r.nextExtract = r.nextInsert then some (.ringNothingToGet, r) else r.take

/-- The four classes, the generic one with the period its `Extract` is called with. -/
inductive RingClass where
  | generic (blockingPeriod : UnsignedInt)
  | blocking
  | protected_
  | unprotected

def RingClass.extract : RingClass → RingMembers α → Option (RingAnswer α × RingMembers α)
  | .generic blockingPeriod, r => RingGeneric.extract r blockingPeriod
  | .blocking, r => RingBlocking.extract r
  | .protected_, r => RingProtected.extract r
  | .unprotected, r => RingUnprotected.extract r

inductive RingOperation (α : Type) where
  | insert (value : α)
  | extract
  | flush
  | nonEmpty

def RingClass.step (k : RingClass) (r : RingMembers α) :
    RingOperation α → Option (RingAnswer α × RingMembers α)
  | .insert value => r.insert value
  | .extract => k.extract r
  | .flush => some (.ringNoError, r.flush)
  | .nonEmpty => some (.nonEmpty r.nonEmpty, r)

/-- What a sequence of operations answers. -/
def RingClass.run (k : RingClass) :
    RingMembers α → List (RingOperation α) → Option (List (RingAnswer α) × RingMembers α)
  | r, [] => some ([], r)
  | r, op :: ops => do
    let (answer, r) ← k.step r op
    let (answers, r) ← k.run r ops
    return (answer :: answers, r)

/-! ## The queue -/

/-- A queue of a capacity. -/
def queueStep (capacity : Nat) (entries : List α) : RingOperation α → RingAnswer α × List α
  | .insert value =>
    if entries.length < capacity then (.ringNoError, entries ++ [value])
    else (.ringTooManyEntries, entries)
  | .extract =>
    match entries with
    | [] => (.ringNothingToGet, [])
    | value :: rest => (.extracted value, rest)
  | .flush => (.ringNoError, [])
  | .nonEmpty => (.nonEmpty !entries.isEmpty, entries)

def queueRun (capacity : Nat) : List α → List (RingOperation α) → List (RingAnswer α) × List α
  | entries, [] => ([], entries)
  | entries, op :: ops =>
    let (answer, entries) := queueStep capacity entries op
    let (answers, entries) := queueRun capacity entries ops
    (answer :: answers, entries)

namespace RingMembers

/-- The entries of a ring, oldest first. -/
structure Holds (r : RingMembers α) (maxEntries : UnsignedInt) (entries : List α) : Prop where
  limit : r.limit.toNat = maxEntries.toNat + 1
  window : Window r.storage r.limit.toNat r.nextExtract.toNat r.nextInsert.toNat entries

variable {r : RingMembers α} {maxEntries : UnsignedInt} {entries : List α}

theorem created_holds (storage : Nat → α) (h : maxEntries + 1 ≠ 0) :
    (created maxEntries storage).Holds maxEntries [] := by
  have hlimit : (maxEntries + 1).toNat = maxEntries.toNat + 1 := by
    have hlt := maxEntries.isLt
    have hone : (1 : UnsignedInt).toNat = 1 := rfl
    by_cases hmax : maxEntries.toNat + 1 = 2 ^ 32
    · refine absurd (BitVec.eq_of_toNat_eq ?_) h
      rw [BitVec.toNat_add, hone, hmax]
      rfl
    · rw [BitVec.toNat_add, hone, Nat.mod_eq_of_lt (by omega)]
  exact ⟨hlimit, Window.empty (by show 0 < (maxEntries + 1).toNat; omega)⟩

theorem toNat_advance {next : UnsignedInt} (h : next < r.limit) :
    (r.advance next).toNat = nextCell r.limit.toNat next.toNat := by
  have hlt := BitVec.lt_def.mp h
  have hlimit := r.limit.isLt
  have hone : (1 : UnsignedInt).toNat = 1 := rfl
  have hsum : (next + 1).toNat = next.toNat + 1 := by
    rw [BitVec.toNat_add, hone, Nat.mod_eq_of_lt (by omega)]
  have heq : next + 1 = r.limit ↔ next.toNat + 1 = r.limit.toNat := by
    rw [← BitVec.toNat_inj, hsum]
  unfold advance nextCell
  split
  · next hend => rw [if_pos (heq.mp hend)]; rfl
  · next hmore => rw [if_neg fun h => hmore (heq.mpr h), hsum]

theorem Holds.nextInsert_lt (h : r.Holds maxEntries entries) : r.nextInsert < r.limit :=
  BitVec.lt_def.mpr h.window.last_lt

theorem Holds.nextExtract_lt (h : r.Holds maxEntries entries) : r.nextExtract < r.limit :=
  BitVec.lt_def.mpr h.window.first_lt

theorem Holds.empty_iff (h : r.Holds maxEntries entries) :
    r.nextExtract = r.nextInsert ↔ entries = [] := by
  rw [← BitVec.toNat_inj]
  exact h.window.empty_iff

theorem Holds.insert (h : r.Holds maxEntries entries) (value : α) :
    ∃ r', r.insert value = some ((queueStep maxEntries.toNat entries (.insert value)).1, r') ∧
      r'.Holds maxEntries (queueStep maxEntries.toNat entries (.insert value)).2 := by
  have hlimit := h.limit
  have hadvance := toNat_advance h.nextInsert_lt
  have hfull : r.advance r.nextInsert = r.nextExtract ↔ entries.length + 1 = r.limit.toNat := by
    rw [← BitVec.toNat_inj, hadvance]
    exact h.window.full_iff
  have hroom := h.window.room
  unfold RingMembers.insert queueStep
  rw [if_pos h.nextInsert_lt]
  dsimp only
  by_cases hcap : entries.length < maxEntries.toNat
  · have hnot : ¬r.advance r.nextInsert = r.nextExtract := by
      rw [hfull]
      omega
    have hpushed := h.window.push value (by omega)
    rw [← hadvance] at hpushed
    rw [if_pos hcap]
    exact ⟨_, if_neg hnot, h.limit, hpushed⟩
  · have hend : r.advance r.nextInsert = r.nextExtract := by
      rw [hfull]
      omega
    rw [if_neg hcap]
    exact ⟨_, if_pos hend, h.limit, h.window.write value⟩

theorem Holds.take {value : α} {rest : List α} (h : r.Holds maxEntries (value :: rest)) :
    ∃ r', r.take = some (.extracted value, r') ∧ r'.Holds maxEntries rest := by
  obtain ⟨hvalue, hrest⟩ := h.window.pop
  rw [← toNat_advance h.nextExtract_lt] at hrest
  unfold RingMembers.take
  rw [if_pos h.nextExtract_lt, hvalue]
  exact ⟨_, rfl, h.limit, hrest⟩

end RingMembers

theorem RingClass.extract_holds (k : RingClass) {r : RingMembers α} {maxEntries : UnsignedInt}
    {entries : List α} (h : r.Holds maxEntries entries) :
    ∃ answer r', k.extract r = some (answer, r') ∧
      answer.timeoutsAside = (queueStep maxEntries.toNat entries .extract).1 ∧
        r'.Holds maxEntries (queueStep maxEntries.toNat entries .extract).2 := by
  cases entries with
  | nil =>
    have hempty := h.empty_iff.mpr rfl
    cases k with
    | generic blockingPeriod =>
      by_cases hwait : blockingPeriod = osInfinite
      · exact ⟨.waits, r, if_pos ⟨hempty, hwait⟩, rfl, h⟩
      · refine ⟨.ringNothingToGet, r, ?_, rfl, h⟩
        show RingGeneric.extract r blockingPeriod = _
        unfold RingGeneric.extract
        rw [if_neg fun hboth => hwait hboth.2, if_neg fun hne => hne hempty]
    | blocking => exact ⟨.waits, r, if_neg fun hne => hne hempty, rfl, h⟩
    | protected_ => exact ⟨.ringNothingToGet, r, if_pos hempty, rfl, h⟩
    | unprotected => exact ⟨.ringNothingToGet, r, if_pos hempty, rfl, h⟩
  | cons value rest =>
    have hne : r.nextExtract ≠ r.nextInsert := fun heq => nomatch h.empty_iff.mp heq
    obtain ⟨r', htake, hr'⟩ := h.take
    refine ⟨.extracted value, r', ?_, rfl, hr'⟩
    rw [← htake]
    cases k with
    | generic blockingPeriod =>
      show RingGeneric.extract r blockingPeriod = _
      unfold RingGeneric.extract
      rw [if_neg fun hboth => hne hboth.1, if_pos hne]
    | blocking => exact if_pos hne
    | protected_ => exact if_neg hne
    | unprotected => exact if_neg hne

theorem RingClass.step_holds (k : RingClass) {r : RingMembers α} {maxEntries : UnsignedInt}
    {entries : List α} (h : r.Holds maxEntries entries) (op : RingOperation α) :
    ∃ answer r', k.step r op = some (answer, r') ∧
      answer.timeoutsAside = (queueStep maxEntries.toNat entries op).1 ∧
        r'.Holds maxEntries (queueStep maxEntries.toNat entries op).2 := by
  cases op with
  | insert value =>
    obtain ⟨r', hinsert, hr'⟩ := h.insert value
    refine ⟨_, r', hinsert, ?_, hr'⟩
    unfold queueStep
    dsimp only
    split <;> rfl
  | extract => exact k.extract_holds h
  | flush =>
    have hpos : 0 < r.limit.toNat := Nat.lt_of_le_of_lt (Nat.zero_le _) h.window.first_lt
    exact ⟨.ringNoError, r.flush, rfl, rfl, h.limit, Window.empty hpos⟩
  | nonEmpty =>
    have hanswer : r.nonEmpty = !entries.isEmpty := by
      unfold RingMembers.nonEmpty
      rw [decide_not, decide_eq_decide.mpr h.empty_iff]
      cases entries <;> rfl
    exact ⟨.nonEmpty r.nonEmpty, r, rfl, congrArg RingAnswer.nonEmpty hanswer, h⟩

theorem RingClass.run_holds (k : RingClass) {maxEntries : UnsignedInt}
    (ops : List (RingOperation α)) :
    ∀ {r : RingMembers α} {entries : List α}, r.Holds maxEntries entries →
      ∃ answers r', k.run r ops = some (answers, r') ∧
        answers.map RingAnswer.timeoutsAside = (queueRun maxEntries.toNat entries ops).1 ∧
          r'.Holds maxEntries (queueRun maxEntries.toNat entries ops).2 := by
  induction ops with
  | nil => intro r entries h; exact ⟨[], r, rfl, rfl, h⟩
  | cons op ops ih =>
    intro r entries h
    obtain ⟨answer, r', hstep, hanswer, hr'⟩ := k.step_holds h op
    obtain ⟨answers, r'', hrun, hanswers, hr''⟩ := ih hr'
    refine ⟨answer :: answers, r'', ?_, ?_, hr''⟩
    · unfold RingClass.run
      rw [hstep]
      dsimp only [Option.bind_eq_bind, Option.bind_some]
      rw [hrun]
      rfl
    · rw [List.map_cons, hanswer, hanswers]
      rfl

/-- Each class of ring is a queue of its capacity: on any sequence of operations it answers
as the queue does, timeouts aside, and so as every other class, and writes nothing outside
of its storage. -/
theorem rings_are_queues (k : RingClass) (maxEntries : UnsignedInt) (storage : Nat → α)
    (h : maxEntries + 1 ≠ 0) (ops : List (RingOperation α)) :
    ∃ answers r, k.run (.created maxEntries storage) ops = some (answers, r) ∧
      answers.map RingAnswer.timeoutsAside = (queueRun maxEntries.toNat [] ops).1 ∧
        r.Holds maxEntries (queueRun maxEntries.toNat [] ops).2 :=
  k.run_holds ops (RingMembers.created_holds storage h)

/-- A ring for one entry, over the end of its storage. -/
theorem rings_are_queues_one :
    ∃ answers r, RingClass.protected_.run (.created 1 fun _ => 0)
        [.insert 5, .insert 6, .extract, .insert 7, .nonEmpty, .extract, .extract] =
          some (answers, r) ∧
      answers.map RingAnswer.timeoutsAside =
        [.ringNoError, .ringTooManyEntries, .extracted 5, .ringNoError, .nonEmpty true,
          .extracted 7, .ringNothingToGet] ∧ r.Holds 1 ([] : List Nat) := by
  obtain ⟨answers, r, hrun, hanswers, hholds⟩ := rings_are_queues .protected_ 1 (fun _ => 0)
    (by decide) [.insert 5, .insert 6, .extract, .insert 7, .nonEmpty, .extract, .extract]
  exact ⟨answers, r, hrun, hanswers, hholds⟩

/-- Made for `2 ^ 32 - 1` entries, a ring allocates none and writes outside. -/
theorem insert_outside :
    (RingMembers.created 0xffffffff fun _ => 0).limit = 0 ∧
      RingClass.protected_.run (.created 0xffffffff fun _ => 0) [.insert 5] = none := by
  exact ⟨by decide, rfl⟩

end Duckbox.Infrastructure
