import Duckbox.Demultiplexor.Ts

/-!
# The tables of the demultiplexor

`Refines c reg`: the stream table holds the streams of a registry, in whatever entries
were free, and the table of PIDs says where the one a PID is routed to is. Adding and
removing a stream keep it (`refines_streamOperation`), although the two tables are
written one after the other and only one of them knows whole identifiers.

What `Demux` reads of a packet that lies within the buffer is the packet
(`packetHeader_eq`, `adaptation_eq`, `slice_eq`).
-/

namespace Duckbox.Demultiplexor

open Duckbox.Lib Packet

variable {σ κ δ : Type}

/-! ## Reading a packet -/

section

variable {data : List Byte} {at_ : Nat}

/-- The packet that begins there. -/
def packetFrom (data : List Byte) (at_ : Nat) : List Byte := (data.drop at_).take dvbPacketSize

theorem packetFrom_length (h : at_ + dvbPacketSize ≤ data.length) :
    (packetFrom data at_).length = dvbPacketSize := by
  unfold packetFrom
  rw [List.length_take, List.length_drop]
  omega

theorem packetFrom_byte (h : at_ + dvbPacketSize ≤ data.length) {i : Nat}
    (hi : i < dvbPacketSize) : data[at_ + i]? = some (byte (packetFrom data at_) i) := by
  have hlen : i < (packetFrom data at_).length := by rwa [packetFrom_length h]
  have hin : at_ + i < data.length := by omega
  unfold byte
  rw [List.getD_eq_getElem _ _ hlen, List.getElem?_eq_getElem hin]
  have hbyte : (packetFrom data at_)[i] = data[at_ + i] := by
    simp only [packetFrom, List.getElem_take, List.getElem_drop]
  rw [hbyte]

theorem packetHeader_eq (h : at_ + dvbPacketSize ≤ data.length) :
    packetHeader data at_ = some (header (packetFrom data at_)) := by
  have h0 := packetFrom_byte h (i := 0) (by decide)
  have h1 := packetFrom_byte h (i := 1) (by decide)
  have h2 := packetFrom_byte h (i := 2) (by decide)
  have h3 := packetFrom_byte h (i := 3) (by decide)
  rw [Nat.add_zero] at h0
  unfold packetHeader
  rw [h0, h1, h2, h3]
  rfl

theorem adaptation_eq (h : at_ + dvbPacketSize ≤ data.length) :
    ∃ valid, adaptation (header (packetFrom data at_)) data at_
      = some (dataOffset (packetFrom data at_), valid) := by
  have h4 := packetFrom_byte h (i := dvbHeaderSize) (by decide)
  have h5 := packetFrom_byte h (i := dvbHeaderSize + 1) (by decide)
  unfold adaptation dataOffset
  rw [dvbAdaptationField_header]
  cases adaptationField (packetFrom data at_) with
  | false => exact ⟨true, rfl⟩
  | true =>
    rw [if_pos rfl, if_pos rfl, h4, Nat.add_assoc, h5]
    dsimp only [Option.bind_eq_bind, Option.bind_some]
    split
    · exact ⟨_, rfl⟩
    · exact ⟨_, rfl⟩

theorem slice_eq (h : at_ + dvbPacketSize ≤ data.length) {offset : Nat}
    (hoff : offset ≤ dvbPacketSize) :
    slice data (at_ + offset) (dvbPacketSize - offset)
      = some ((packetFrom data at_).drop offset) := by
  unfold slice packetFrom
  rw [if_pos (by omega), List.drop_take, List.drop_drop]

theorem payload_ne_nil (p : List Byte) (h : p.length = dvbPacketSize) :
    payload p ≠ [] ↔ payloadPresent p ∧ dataOffset p < dvbPacketSize := by
  unfold payload
  split
  · next hp =>
    rw [ne_eq, List.drop_eq_nil_iff, h, Nat.not_le]
    exact (and_iff_right hp).symm
  · next hp => exact iff_of_false (fun hne => hne rfl) fun hand => hp hand.1

end

/-! ## The tables -/

/-- What an entry of the stream table holds. -/
def BaseStreamContext.registration (e : BaseStreamContext σ κ) : Option (Registration σ κ) :=
  match e.stream, e.collator with
  | some stream, some collator => some ⟨stream, collator, e.identifier⟩
  | _, _ => none

def registrationAt (c : Context σ κ) (i : Fin maxStreams) : Option (Registration σ κ) :=
  (c.baseStreams i).registration

/-- The tables hold what the registry does. -/
structure Refines (c : Context σ κ) (reg : Registry σ κ) : Prop where
  live : (contents (registrationAt c)).Perm reg.live
  held : ∀ i, (c.baseStreams i).stream.isNone = (registrationAt c i).isNone
  unrouted : ∀ pid, c.pidTable pid = 0 → reg.routes pid = none
  routed : ∀ pid, c.pidTable pid ≠ 0 → ∃ (i : Fin maxStreams) (r : Registration σ κ),
    (c.pidTable pid).toNat = i + 1 ∧ registrationAt c i = some r ∧ reg.routes pid = some r
  priority : ∀ i r, registrationAt c i = some r →
    (c.streams i).selectOnPriority = r.identifier.getLsbD 13 ∧
      (c.streams i).desiredPriority = r.identifier.getLsbD 14
  added : c.addedNewStream = reg.added

theorem identifierPid_eq (identifier : UnsignedInt) :
    (identifier &&& BitVec.ofNat 32 (dvbMaxPids - 1)).toNat = identifierPid identifier :=
  Nat.and_two_pow_sub_one_eq_mod identifier.toNat 13

theorem refines_createContext : Refines (createContext : Context σ κ) Registry.empty where
  live := by
    show (contents fun _ => none).Perm []
    rw [contents_empty]
  held := fun _ => rfl
  unrouted := fun _ _ => rfl
  routed := fun _ h => absurd rfl h
  priority := fun _ _ h => nomatch h
  added := rfl

section

variable {c : Context σ κ} {reg : Registry σ κ}

variable {i : Fin maxStreams}

theorem registrationAt_none (h : Refines c reg) (hi : (c.baseStreams i).stream = none) :
    registrationAt c i = none := by
  have hheld := h.held i
  rw [hi] at hheld
  exact Option.isNone_iff_eq_none.mp hheld.symm

/-- The tables once a stream is entered in a slot. -/
def enter (r : Registration σ κ) (i : Fin maxStreams) (c : Context σ κ) : Context σ κ :=
  { c with
    lastStreamSet := i
    baseStreams := Function.update c.baseStreams i ⟨some r.stream, r.identifier, some r.collator⟩
    streams := Function.update c.streams i { c.streams i with
      validExpectedContinuityCount := false
      selectOnPriority := r.identifier.getLsbD 13
      desiredPriority := r.identifier.getLsbD 14 }
    pidTable := Function.update c.pidTable (identifierPid r.identifier)
      (BitVec.ofNat 8 (i.val + 1))
    addedNewStream := true }

variable {r : Registration σ κ}

theorem addStream_full (h : (firstFree fun i => (c.baseStreams i).stream) = none) :
    (addStream r c).2 = c := by
  simp [addStream, baseAddStream, h]

theorem addStream_free (h : (firstFree fun i => (c.baseStreams i).stream) = some i) :
    (addStream r c).2 = enter r i c := by
  have hselect : (r.identifier &&& 0x00002000#32 != 0) = r.identifier.getLsbD 13 :=
    and_ne_zero_iff r.identifier 13 (by decide)
  have hhigh : (r.identifier &&& 0x00004000#32 != 0) = r.identifier.getLsbD 14 :=
    and_ne_zero_iff r.identifier 14 (by decide)
  unfold addStream baseAddStream enter
  rw [h]
  dsimp only
  rw [if_neg (fun hne => hne rfl), hselect, hhigh, identifierPid_eq]

theorem number_toNat (i : Fin maxStreams) : (BitVec.ofNat 8 (i.val + 1)).toNat = i.val + 1 := by
  have hi : i.val < 4 := i.isLt
  exact Nat.mod_eq_of_lt (by omega)

theorem registrationAt_enter (r : Registration σ κ) (i : Fin maxStreams) :
    registrationAt (enter r i c) = Function.update (registrationAt c) i (some r) := by
  funext j
  show (Function.update c.baseStreams i _ j).registration = _
  by_cases hj : j = i
  · subst hj
    rw [Function.update_self, Function.update_self]
    rfl
  · rw [Function.update_of_ne hj, Function.update_of_ne hj]
    rfl

theorem refines_enter (h : Refines c reg) (r : Registration σ κ) (hi : registrationAt c i = none) :
    Refines (enter r i c) (reg.add r) where
  live := by
    rw [registrationAt_enter]
    exact (contents_fill hi r).trans (h.live.cons r)
  held := by
    intro j
    rw [registrationAt_enter]
    show (Function.update c.baseStreams i _ j).stream.isNone = _
    by_cases hj : j = i
    · subst hj
      rw [Function.update_self, Function.update_self]
      rfl
    · rw [Function.update_of_ne hj, Function.update_of_ne hj]
      exact h.held j
  unrouted := by
    intro pid hzero
    by_cases hpid : pid = identifierPid r.identifier
    · -- what is written there is not zero
      have hnumber := number_toNat i
      have hwritten : (enter r i c).pidTable pid = BitVec.ofNat 8 (i.val + 1) := by
        rw [hpid]
        exact Function.update_self ..
      rw [← hwritten, hzero] at hnumber
      exact absurd hnumber.symm (Nat.succ_ne_zero _)
    · have hbefore : c.pidTable pid = 0 := (Function.update_of_ne hpid ..).symm.trans hzero
      exact (Function.update_of_ne hpid ..).trans (h.unrouted pid hbefore)
  routed := by
    intro pid hne
    rw [registrationAt_enter]
    by_cases hpid : pid = identifierPid r.identifier
    · subst hpid
      refine ⟨i, r, ?_, Function.update_self .., Function.update_self ..⟩
      show (Function.update c.pidTable _ _ _).toNat = _
      rw [Function.update_self]
      exact number_toNat i
    · have hbefore : (enter r i c).pidTable pid = c.pidTable pid := Function.update_of_ne hpid ..
      rw [hbefore] at hne ⊢
      obtain ⟨j, r', hnumber, hj, hroute⟩ := h.routed pid hne
      have hji : j ≠ i := by
        intro he
        rw [he, hi] at hj
        cases hj
      exact ⟨j, r', hnumber, (Function.update_of_ne hji ..).trans hj,
        (Function.update_of_ne hpid ..).trans hroute⟩
  priority := by
    intro j r' hr'
    rw [registrationAt_enter] at hr'
    show (Function.update c.streams i _ j).selectOnPriority = _ ∧
      (Function.update c.streams i _ j).desiredPriority = _
    by_cases hj : j = i
    · subst hj
      rw [Function.update_self] at hr'
      obtain rfl := Option.some.inj hr'
      rw [Function.update_self]
      exact ⟨rfl, rfl⟩
    · rw [Function.update_of_ne hj] at hr' ⊢
      exact h.priority j r' hr'
  added := rfl

theorem collator_of_registrationAt (h : registrationAt c i = some r) :
    (c.baseStreams i).collator = some r.collator := by
  unfold registrationAt BaseStreamContext.registration at h
  split at h
  · next hcollator =>
    obtain rfl := Option.some.inj h
    exact hcollator
  · cases h

theorem refines_addStream (h : Refines c reg) (r : Registration σ κ) :
    Refines (addStream r c).2 (reg.step (.addStream r)) := by
  show Refines _ (if reg.live.length < maxStreams then reg.add r else reg)
  cases hfree : firstFree fun i => (c.baseStreams i).stream with
  | none =>
    -- no entry is free: the registry is full
    have hfull : ¬ reg.live.length < maxStreams := by
      intro hlt
      rw [← h.live.length_eq] at hlt
      obtain ⟨i, hi⟩ := firstFree_isSome hlt
      have hsame : (firstFree fun i => (c.baseStreams i).stream) = firstFree (registrationAt c) :=
        congrArg (List.find? · (List.finRange maxStreams)) (funext h.held)
      rw [hsame, hi] at hfree
      cases hfree
    rw [if_neg hfull, addStream_full hfree]
    exact h
  | some i =>
    have hnone := registrationAt_none h (firstFree_eq_some hfree)
    have hroom : reg.live.length < maxStreams := by
      rw [← h.live.length_eq]
      exact contents_length_lt hnone r
    rw [if_pos hroom, addStream_free hfree]
    exact refines_enter h r hnone

/-- What becomes of an entry when an identifier is removed. -/
def freed (identifier : UnsignedInt) (e : BaseStreamContext σ κ) : BaseStreamContext σ κ :=
  if e.identifier = identifier then { e with stream := none, identifier := invalidIndex } else e

theorem registrationAt_remove (identifier : UnsignedInt) (i : Fin maxStreams) :
    registrationAt (removeStream identifier c).2 i
      = (registrationAt c i).filter fun r => r.identifier != identifier := by
  show (freed identifier (c.baseStreams i)).registration
    = (c.baseStreams i).registration.filter fun r => r.identifier != identifier
  obtain ⟨stream, own, collator⟩ := c.baseStreams i
  by_cases hid : own = identifier
  · cases stream <;> cases collator <;>
      simp [freed, BaseStreamContext.registration, Option.filter, hid]
  · cases stream <;> cases collator <;>
      simp [freed, BaseStreamContext.registration, Option.filter, hid]

theorem pidTable_remove (identifier : UnsignedInt) : (removeStream identifier c).2.pidTable
    = Function.update c.pidTable (identifierPid identifier) 0 :=
  congrArg (Function.update c.pidTable · 0) (identifierPid_eq identifier)

theorem refines_removeStream (h : Refines c reg) (identifier : UnsignedInt) :
    Refines (removeStream identifier c).2 (reg.remove identifier) where
  live := by
    rw [funext (registrationAt_remove identifier), contents_filter]
    exact h.live.filter _
  held := by
    intro i
    have hheld := h.held i
    show (freed identifier (c.baseStreams i)).stream.isNone
      = (freed identifier (c.baseStreams i)).registration.isNone
    by_cases hid : (c.baseStreams i).identifier = identifier
    · rw [freed, if_pos hid]
      rfl
    · rw [freed, if_neg hid]
      exact hheld
  unrouted := by
    intro pid hzero
    by_cases hpid : pid = identifierPid identifier
    · subst hpid
      exact Function.update_self ..
    · refine (Function.update_of_ne hpid ..).trans (h.unrouted pid ?_)
      rw [← hzero, pidTable_remove]
      exact (Function.update_of_ne hpid ..).symm
  routed := by
    intro pid hne
    rw [pidTable_remove] at hne ⊢
    by_cases hpid : pid = identifierPid identifier
    · subst hpid
      exact absurd (Function.update_self ..) hne
    · rw [Function.update_of_ne hpid] at hne ⊢
      obtain ⟨i, r, hnumber, hi, hroute⟩ := h.routed pid hne
      refine ⟨i, r, hnumber, ?_, (Function.update_of_ne hpid ..).trans hroute⟩
      -- the entry is for another PID, so it is not the one freed
      have hother : r.identifier ≠ identifier := by
        intro hsame
        exact hpid ((reg.routed hroute).2 ▸ congrArg identifierPid hsame)
      rw [registrationAt_remove, hi]
      simp [hother]
  priority := by
    intro i r hr
    rw [registrationAt_remove] at hr
    exact h.priority i r (Option.filter_eq_some_iff.mp hr).1
  added := h.added

theorem refines_streamOperation (h : Refines c reg) (op : StreamOperation σ κ) :
    Refines (streamOperation c op) (reg.step op) := by
  cases op with
  | addStream r => exact refines_addStream h r
  | removeStream identifier => exact refines_removeStream h identifier

theorem refines_streamOperations (h : Refines c reg) (ops : List (StreamOperation σ κ)) :
    Refines (ops.foldl streamOperation c) (ops.foldl Registry.step reg) := by
  induction ops generalizing c reg with
  | nil => exact h
  | cons op ops ih => exact ih (refines_streamOperation h op)

end

end Duckbox.Demultiplexor
