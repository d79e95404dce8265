import Duckbox.Lib.Links
import Duckbox.Lib.Slots

/-!
# Event records

The events that the player has signalled and nobody has collected yet, in a list
linked through the table `EventList`. A slot is free where its record has the code
`EventIllegalIdentifier`; `SignalEvent` gives up the oldest event where there is none
and calls itself again, `GetEventRecord` takes out the first record that meets the
criteria, and looks for the tail again if it took that. The lock is held for one of
these at a time and not while `SignalEvent` calls itself: a `LockedSection` is what one
thread does between two others.

> `events_are_a_queue`: in whatever order the threads come to the lock, what they
> find is what they would in a queue with room for as many records as the table; and
> whenever nobody comes between, `SignalEvent` calls itself once at most.

A table of one slot would not do: the tail stays where the oldest was.
-/

namespace Duckbox.Player

open Duckbox.Lib

/-- `PLAYER_MAX_OUTSTANDING_EVENTS`. -/
abbrev playerMaxOutstandingEvents : Nat := 32

/-- `PlayerEventRecord_t`; pointers are numbers, and `data` is all that is only copied. -/
structure EventRecord (δ : Type) where
  code : BitVec 64
  playback : Nat
  stream : Nat
  data : δ
deriving DecidableEq

/-- What is asked for; 0 are `PlayerAllPlaybacks` and `PlayerAllStreams`. -/
structure Criteria where
  playback : Nat
  stream : Nat
  events : BitVec 64

variable {δ : Type} {n : Nat}

/-- `EventMatchesCriteria`. -/
def eventMatchesCriteria (c : Criteria) (r : EventRecord δ) : Bool :=
  (c.playback == 0 || c.playback == r.playback) && (c.stream == 0 || c.stream == r.stream) &&
    c.events &&& r.code != 0

/-- What is done under the lock. -/
inductive LockedSection (δ : Type) where
  | signalEvent (r : EventRecord δ)
  | getEventRecord (c : Criteria)

/-- No event is signalled that is none. -/
def LockedSection.Legal : LockedSection δ → Prop
  | signalEvent r => r.code ≠ 0
  | getEventRecord _ => True

/-- What comes of it: whether `SignalEvent` is done, what `GetEventRecord` has. -/
abbrev Answer (δ : Type) := Bool ⊕ Option (EventRecord δ)

/-- `EventListHead`, `EventListTail` and the two halves of `EventList`. -/
structure EventTable (δ : Type) (n : Nat) where
  eventListHead : Option (Fin n)
  eventListTail : Option (Fin n)
  record : Fin n → EventRecord δ
  nextIndex : Fin n → Option (Fin n)

namespace EventTable

/-- The constructor, over what the table held before. -/
def created (s : EventTable δ n) : EventTable δ n :=
  { s with
    eventListHead := none
    eventListTail := none
    record := fun i => { s.record i with code := 0 } }

/-- "Find an empty vessel". -/
def emptyVessel (s : EventTable δ n) : Option (Fin n) :=
  (List.finRange n).find? fun i => (s.record i).code == 0

/-- A record is put into a slot, behind the tail. -/
def link (s : EventTable δ n) (i : Fin n) (r : EventRecord δ) : EventTable δ n :=
  let s := { s with
    record := Function.update s.record i r
    nextIndex := Function.update s.nextIndex i none }
  match s.eventListTail with
  | some k =>
    { s with nextIndex := Function.update s.nextIndex k (some i), eventListTail := some i }
  | none => { s with eventListHead := some i, eventListTail := some i }

/-- The slot is free. -/
def clear (s : EventTable δ n) (i : Fin n) : EventTable δ n :=
  { s with record := Function.update s.record i { s.record i with code := 0 } }

/-- "Discarding uncollected event". -/
def discardOldest (s : EventTable δ n) : EventTable δ n :=
  match s.eventListHead with
  | none => s
  | some i => { s.clear i with eventListHead := s.nextIndex i }

/-- `SignalEvent` up to where it calls itself, and if it does not. -/
def signalOnce (s : EventTable δ n) (r : EventRecord δ) : Bool × EventTable δ n :=
  match s.emptyVessel with
  | some i => (true, s.link i r)
  | none => (false, s.discardOldest)

/-- `SignalEvent`, which may call itself so many times less one. -/
def signalEvent (r : EventRecord δ) : Nat → EventTable δ n → Option (EventTable δ n)
  | 0, _ => none
  | calls + 1, s =>
    if (s.signalOnce r).1 then some (s.signalOnce r).2
    else signalEvent r calls (s.signalOnce r).2

/-- The record of a slot is taken out, behind `prev` or at the head. -/
def unlink (s : EventTable δ n) (prev : Option (Fin n)) (i : Fin n) : EventTable δ n :=
  let t := match prev with
    | none => { s with eventListHead := s.nextIndex i }
    | some k => { s with nextIndex := Function.update s.nextIndex k (s.nextIndex i) }
  { t.clear i with nextIndex := Function.update t.nextIndex i none }

/-- "If we just removed the tail, walk the list to find it again." -/
def take (s : EventTable δ n) (prev : Option (Fin n)) (i : Fin n) : EventTable δ n :=
  let t := s.unlink prev i
  if s.eventListTail = some i then
    { t with eventListTail := lastSlot t.nextIndex n t.eventListHead }
  else t

/-- `GetEventRecord`, once; `ScanEventListForMatch` is the search. -/
def getEventRecord (s : EventTable δ n) (c : Criteria) : Option (EventRecord δ) × EventTable δ n :=
  match search (fun i => eventMatchesCriteria c (s.record i)) s.nextIndex n none s.eventListHead with
  | none => (none, s)
  | some (prev, i) => (some (s.record i), s.take prev i)

/-- A section, on the table. -/
def perform (s : EventTable δ n) : LockedSection δ → Answer δ × EventTable δ n
  | .signalEvent r => let (done, t) := s.signalOnce r; (.inl done, t)
  | .getEventRecord c => let (found, t) := s.getEventRecord c; (.inr found, t)

/-- A section, on a queue that has room for so many. -/
def queue (room : Nat) (q : List (EventRecord δ)) : LockedSection δ → Answer δ × List (EventRecord δ)
  | .signalEvent r => if q.length < room then (.inl true, q ++ [r]) else (.inl false, q.tail)
  | .getEventRecord c =>
    (.inr (q.find? (eventMatchesCriteria c)), q.eraseP (eventMatchesCriteria c))

/-- `SignalEvent`, on the queue, where nobody comes between. -/
def enqueue (room : Nat) (q : List (EventRecord δ)) (r : EventRecord δ) : List (EventRecord δ) :=
  if q.length < room then q ++ [r] else q.tail ++ [r]

/-- What all of them find, one after another, and what is left. -/
def answers {σ : Type} (step : σ → LockedSection δ → Answer δ × σ) :
    σ → List (LockedSection δ) → List (Answer δ) × σ
  | s, [] => ([], s)
  | s, x :: l =>
    let (answer, s) := step s x
    let (rest, s) := answers step s l
    (answer :: rest, s)

/-- What is in the list, by its slots. -/
structure Holds (s : EventTable δ n) (l : List (Fin n)) : Prop where
  path : Path s.nextIndex s.eventListHead l none
  nodup : l.Nodup
  tail : s.eventListTail = l.getLast?
  used : ∀ i, i ∈ l ↔ (s.record i).code ≠ 0

variable {s : EventTable δ n} {l a b : List (Fin n)} {i : Fin n} {r : EventRecord δ}

theorem holds_created (s : EventTable δ n) : s.created.Holds [] :=
  ⟨rfl, List.nodup_nil, rfl, by simp [created]⟩

theorem Holds.emptyVessel (h : s.Holds l) :
    (s.emptyVessel = none ∧ l.length = n) ∨ ∃ i, s.emptyVessel = some i ∧ i ∉ l ∧ l.length < n :=
  find?_free h.nodup fun i => by simp [h.used i]

theorem map_update (hi : i ∉ l) (r : EventRecord δ) :
    l.map (Function.update s.record i r) = l.map s.record :=
  List.map_congr_left fun _ hj => Function.update_of_ne (ne_of_mem_of_not_mem hj hi) ..

theorem mem_update_iff {l' : List (Fin n)} (h : s.Holds l) (hl : ∀ j, j ≠ i → (j ∈ l' ↔ j ∈ l))
    (hi : i ∈ l' ↔ r.code ≠ 0) (j : Fin n) :
    j ∈ l' ↔ (Function.update s.record i r j).code ≠ 0 := by
  by_cases hj : j = i
  · rw [hj, Function.update_self]
    exact hi
  · rw [Function.update_of_ne hj, hl j hj]
    exact h.used j

theorem Holds.link (h : s.Holds l) (hi : i ∉ l) (hr : r.code ≠ 0) :
    (s.link i r).Holds (l ++ [i]) ∧
      (l ++ [i]).map (s.link i r).record = l.map s.record ++ [r] := by
  have hrecord : (s.link i r).record = Function.update s.record i r := by
    unfold EventTable.link
    dsimp only
    split <;> rfl
  refine ⟨⟨?_, List.nodup_append_comm.mp (List.nodup_cons.mpr ⟨hi, h.nodup⟩), ?_, ?_⟩, ?_⟩
  · have hpath := h.path
    unfold EventTable.link
    rw [h.tail]
    rcases List.eq_nil_or_concat' l with rfl | ⟨a, k, rfl⟩
    · exact ⟨rfl, Function.update_self ..⟩
    · have hk : k ∉ a := fun hk => List.disjoint_of_nodup_append h.nodup hk (by simp)
      have hik : i ≠ k := fun hik => hi (by simp [hik])
      rw [List.getLast?_concat]
      refine path_append.mpr ⟨some i, (hpath.update_of_not_mem hi none).retarget hk _, rfl, ?_⟩
      exact (Function.update_of_ne hik ..).trans (Function.update_self ..)
  · unfold EventTable.link
    dsimp only
    split <;> simp
  · rw [hrecord]
    exact mem_update_iff h (fun j hj => by simp [hj]) (iff_of_true (by simp) hr)
  · rw [hrecord, List.map_append, map_update hi]
    simp

theorem Holds.discardOldest (h : s.Holds l) (hlength : 2 ≤ l.length) :
    ∃ i l', l = i :: l' ∧ s.discardOldest.Holds l' ∧
      l'.map s.discardOldest.record = l'.map s.record := by
  obtain ⟨i, k, l', rfl⟩ : ∃ i k l', l = i :: k :: l' := by
    match l, hlength with
    | i :: k :: l', _ => exact ⟨i, k, l', rfl⟩
  obtain ⟨hi, hnodup⟩ := List.nodup_cons.mp h.nodup
  have hhead : s.eventListHead = some i := h.path.1
  unfold EventTable.discardOldest
  rw [hhead]
  exact ⟨i, k :: l', rfl, ⟨h.path.2, hnodup, h.tail,
    mem_update_iff h (fun j hj => by simp [hj]) (by simpa using hi)⟩, map_update hi _⟩

theorem Holds.unlink (h : s.Holds (a ++ i :: b)) :
    Path (s.unlink a.getLast? i).nextIndex (s.unlink a.getLast? i).eventListHead (a ++ b) none ∧
      (s.unlink a.getLast? i).record = Function.update s.record i { s.record i with code := 0 } := by
  obtain ⟨m, ha, rfl, hb⟩ := path_append.mp h.path
  have hi := (List.nodup_cons.mp (List.nodup_middle.mp h.nodup)).1
  unfold EventTable.unlink
  rcases List.eq_nil_or_concat' a with rfl | ⟨a, k, rfl⟩
  · exact ⟨hb.update_of_not_mem hi none, rfl⟩
  · obtain ⟨hnodup, -, hdisjoint⟩ := List.nodup_append.mp h.nodup
    have hk : k ∉ a := fun hk => List.disjoint_of_nodup_append hnodup hk (by simp)
    have hkb : k ∉ b := fun hkb => hdisjoint k (by simp) k (by simp [hkb]) rfl
    rw [List.getLast?_concat]
    exact ⟨Path.update_of_not_mem
      (path_append.mpr ⟨_, ha.retarget hk _, hb.update_of_not_mem hkb _⟩) hi none, rfl⟩

theorem Holds.take (h : s.Holds (a ++ i :: b)) : (s.take a.getLast? i).Holds (a ++ b) ∧
    (a ++ b).map (s.take a.getLast? i).record = (a ++ b).map s.record := by
  obtain ⟨hpath, hrecord⟩ := h.unlink
  obtain ⟨hi, hnodup⟩ := List.nodup_cons.mp (List.nodup_middle.mp h.nodup)
  have hused : ∀ j, j ∈ a ++ b ↔ ((s.unlink a.getLast? i).record j).code ≠ 0 := by
    rw [hrecord]
    refine mem_update_iff h (fun j hj => by simp [hj]) (iff_of_false hi (by simp))
  have hmap : (a ++ b).map (s.unlink a.getLast? i).record = (a ++ b).map s.record := by
    rw [hrecord, map_update hi]
  have hle := slots_length_le h.nodup
  unfold EventTable.take
  dsimp only
  split
  · exact ⟨⟨hpath, hnodup, hpath.lastSlot_eq (by simp at hle ⊢; omega), hused⟩, hmap⟩
  · next htail =>
    refine ⟨⟨hpath, hnodup, ?_, hused⟩, hmap⟩
    -- The tail was another, so something follows the slot.
    rw [h.tail] at htail
    have hb : b ≠ [] := by
      intro hb
      rw [hb] at htail
      exact htail List.getLast?_concat
    calc (s.unlink a.getLast? i).eventListTail = s.eventListTail := by
          unfold EventTable.unlink
          split <;> rfl
      _ = b.getLast? := by
          rw [h.tail, List.getLast?_append_cons, List.getLast?_cons_of_ne_nil hb]
      _ = (a ++ b).getLast? := (List.getLast?_append_of_ne_nil a hb).symm

/-- The records in the list, the oldest first. -/
def Stands (s : EventTable δ n) (q : List (EventRecord δ)) : Prop :=
  ∃ l, s.Holds l ∧ l.map s.record = q

variable {q : List (EventRecord δ)} {c : Criteria}

theorem Stands.getEventRecord (h : s.Stands q) :
    (s.getEventRecord c).1 = q.find? (eventMatchesCriteria c) ∧
      (s.getEventRecord c).2.Stands (q.eraseP (eventMatchesCriteria c)) := by
  obtain ⟨l, hl, rfl⟩ := h
  unfold EventTable.getEventRecord
  rcases hl.path.search_eq (p := fun i => eventMatchesCriteria c (s.record i)) []
    (slots_length_le hl.nodup)
    with ⟨hnone, hall⟩ | ⟨a, i, b, rfl, ha, hi, hfound⟩
  · rw [show search _ _ _ none _ = none from hnone]
    have hall : ∀ r ∈ l.map s.record, ¬eventMatchesCriteria c r := by
      simpa using hall
    exact ⟨(List.find?_eq_none.mpr hall).symm, l, hl, (List.eraseP_of_forall_not hall).symm⟩
  · rw [show search _ _ _ none _ = some (a.getLast?, i) from hfound]
    obtain ⟨htake, hmap⟩ := hl.take
    have ha : ∀ r ∈ a.map s.record, ¬eventMatchesCriteria c r := by
      simpa using ha
    rw [List.map_append, List.map_cons]
    refine ⟨?_, a ++ b, htake, ?_⟩
    · rw [List.find?_append, List.find?_eq_none.mpr ha, List.find?_cons_of_pos hi]
      rfl
    · rw [hmap, List.eraseP_append_right _ ha, List.eraseP_cons_of_pos hi, List.map_append]

theorem Stands.signalOnce (h : s.Stands q) (hn : 2 ≤ n) (hr : r.code ≠ 0) :
    (s.signalOnce r).1 = decide (q.length < n) ∧
      (s.signalOnce r).2.Stands (if q.length < n then q ++ [r] else q.tail) := by
  obtain ⟨l, hl, rfl⟩ := h
  unfold EventTable.signalOnce
  rw [List.length_map]
  rcases hl.emptyVessel with ⟨hnone, hfull⟩ | ⟨i, hsome, hi, hlt⟩
  · obtain ⟨i, l', rfl, hl', hmap⟩ := hl.discardOldest (hn.trans_eq hfull.symm)
    rw [hnone, hfull, if_neg (Nat.lt_irrefl n)]
    exact ⟨by simp, l', hl', hmap⟩
  · rw [hsome, if_pos hlt]
    exact ⟨by simp [hlt], l ++ [i], hl.link hi hr⟩

theorem Stands.step {x : LockedSection δ} (h : s.Stands q) (hn : 2 ≤ n) (hx : x.Legal) :
    (s.perform x).1 = (queue n q x).1 ∧ (s.perform x).2.Stands (queue n q x).2 := by
  cases x with
  | signalEvent r =>
    obtain ⟨hdone, hstands⟩ := h.signalOnce hn hx
    unfold perform queue
    split_ifs with hlt
    · exact ⟨by simp [hdone, hlt], by simpa [hlt] using hstands⟩
    · exact ⟨by simp [hdone, hlt], by simpa [hlt] using hstands⟩
  | getEventRecord c =>
    obtain ⟨hfound, hstands⟩ := h.getEventRecord (c := c)
    exact ⟨congrArg Sum.inr hfound, hstands⟩

theorem Stands.steps (hn : 2 ≤ n) {l : List (LockedSection δ)} (hl : ∀ x ∈ l, x.Legal) :
    ∀ {s : EventTable δ n} {q : List (EventRecord δ)}, s.Stands q →
      (answers perform s l).1 = (answers (queue n) q l).1 ∧
        (answers perform s l).2.Stands (answers (queue n) q l).2 := by
  induction l with
  | nil => intro s q h; exact ⟨rfl, h⟩
  | cons x l ih =>
    intro s q h
    obtain ⟨hx, hl⟩ := List.forall_mem_cons.mp hl
    obtain ⟨hanswer, h⟩ := h.step hn hx
    obtain ⟨hrest, h⟩ := ih hl h
    exact ⟨congrArg₂ List.cons hanswer hrest, h⟩

theorem Stands.signalEvent (h : s.Stands q) (hn : 2 ≤ n) (hr : r.code ≠ 0) :
    ∃ t, s.signalEvent r 2 = some t ∧ t.Stands (enqueue n q r) := by
  obtain ⟨hdone, hstands⟩ := h.signalOnce hn hr
  unfold EventTable.signalEvent enqueue
  by_cases hlt : q.length < n
  · rw [if_pos hlt] at hstands
    rw [if_pos hlt, if_pos (hdone.trans (decide_eq_true hlt))]
    exact ⟨_, rfl, hstands⟩
  · -- A slot was made free, and the second time it is found.
    rw [if_neg hlt] at hstands
    obtain ⟨hdone', hstands'⟩ := hstands.signalOnce hn hr
    have hlt' : q.tail.length < n := by
      obtain ⟨l, hl, rfl⟩ := h
      have hle := slots_length_le hl.nodup
      rw [List.length_tail, List.length_map]
      omega
    unfold EventTable.signalEvent
    rw [if_pos hlt'] at hstands'
    rw [if_neg hlt, if_neg (by simp [hdone, hlt]), if_pos (hdone'.trans (decide_eq_true hlt'))]
    exact ⟨_, rfl, hstands'⟩

theorem events_are_a_queue (hn : 2 ≤ n) (s : EventTable δ n) (l : List (LockedSection δ))
    (hl : ∀ x ∈ l, x.Legal) (r : EventRecord δ) (hr : r.code ≠ 0) :
    (answers perform s.created l).1 = (answers (queue n) [] l).1 ∧
      ∃ t, (answers perform s.created l).2.signalEvent r 2 = some t ∧
        t.Stands (enqueue n (answers (queue n) [] l).2 r) := by
  obtain ⟨hanswers, hstands⟩ := Stands.steps hn hl ⟨[], holds_created s, rfl⟩
  exact ⟨hanswers, hstands.signalEvent hn hr⟩

theorem events_are_a_queue_two :
    let r : EventRecord Unit := ⟨1, 7, 9, ()⟩
    let r' : EventRecord Unit := ⟨2, 7, 9, ()⟩
    let s : EventTable Unit playerMaxOutstandingEvents := ⟨none, none, fun _ => r, fun _ => none⟩
    let l := [.signalEvent r, .signalEvent r', .getEventRecord ⟨7, 0, 2⟩, .getEventRecord ⟨7, 0, 2⟩]
    (answers perform s.created l).1 = [.inl true, .inl true, .inr (some r'), .inr none] ∧
      ∃ t, (answers perform s.created l).2.signalEvent r' 2 = some t ∧ t.Stands [r, r'] := by
  intro r r' s l
  have hqueue : answers (queue playerMaxOutstandingEvents) [] l =
      ([.inl true, .inl true, .inr (some r'), .inr none], [r]) := by decide
  have h := events_are_a_queue (by decide) s l (by simp [l, r, r', LockedSection.Legal]) r'
    (by decide)
  rw [hqueue] at h
  exact h

end EventTable

end Duckbox.Player
