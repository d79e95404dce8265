import Duckbox.Demultiplexor.TransportPacket

/-!
# Who a packet is for

What a transport stream demultiplexor is for, without its tables. A `Registry` holds the
streams that are registered, at most `maxStreams` of them, and for each PID the one its
packets go to: the last registered for it, until an identifier of that PID is removed.
That a packet never goes to a stream that has been removed is a field of it (`routed`).

`Registry.deliver` is a buffer of packets taken one after the other, streams coming and
going before each, up to the first that a collator has no room for.
-/

namespace Duckbox.Demultiplexor

open Packet

/-- `DEMULTIPLEXOR_MAX_STREAMS`. -/
abbrev maxStreams : Nat := 4

/-- A stream added under an identifier, with the collator its data goes to. -/
structure Registration (σ κ : Type) where
  stream : σ
  collator : κ
  identifier : UnsignedInt
deriving DecidableEq

/-- What other callers do to the streams. -/
inductive StreamOperation (σ κ : Type) where
  | addStream (registration : Registration σ κ)
  | removeStream (identifier : UnsignedInt)

/-- A call of a collator's `Input`. -/
structure Delivery (κ δ : Type) where
  collator : κ
  descriptor : δ
  data : List Byte
deriving DecidableEq

variable {σ κ δ : Type}

/-- The PID of an identifier, whose other bits say what priority is wanted. -/
def identifierPid (identifier : UnsignedInt) : Nat := identifier.toNat % dvbMaxPids

/-- The packet has the priority asked for, if one is. -/
def Registration.wants (r : Registration σ κ) (p : List Byte) : Bool :=
  !r.identifier.getLsbD 13 || r.identifier.getLsbD 14 == priority p

structure Registry (σ κ : Type) where
  live : List (Registration σ κ)
  routes : Nat → Option (Registration σ κ)
  /-- A stream was added since packets were last taken. -/
  added : Bool
  routed : ∀ {pid r}, routes pid = some r → r ∈ live ∧ identifierPid r.identifier = pid

namespace Registry

def empty : Registry σ κ where
  live := []
  routes := fun _ => none
  added := false
  routed := fun h => nomatch h

/-- The last stream registered for a PID takes its packets. -/
def add (reg : Registry σ κ) (r : Registration σ κ) : Registry σ κ where
  live := r :: reg.live
  routes := Function.update reg.routes (identifierPid r.identifier) (some r)
  added := true
  routed := by
    intro pid r' h
    by_cases hpid : pid = identifierPid r.identifier
    · subst hpid
      rw [Function.update_self] at h
      obtain rfl := Option.some.inj h
      exact ⟨List.mem_cons_self, rfl⟩
    · rw [Function.update_of_ne hpid] at h
      obtain ⟨hlive, hroute⟩ := reg.routed h
      exact ⟨List.mem_cons_of_mem r hlive, hroute⟩

def remove (reg : Registry σ κ) (identifier : UnsignedInt) : Registry σ κ where
  live := reg.live.filter fun r => r.identifier != identifier
  routes := Function.update reg.routes (identifierPid identifier) none
  added := reg.added
  routed := by
    intro pid r h
    by_cases hpid : pid = identifierPid identifier
    · subst hpid
      rw [Function.update_self] at h
      exact nomatch h
    · rw [Function.update_of_ne hpid] at h
      obtain ⟨hlive, hroute⟩ := reg.routed h
      refine ⟨List.mem_filter.mpr ⟨hlive, bne_iff_ne.mpr ?_⟩, hroute⟩
      -- it is registered for another PID, so under another identifier
      intro hsame
      exact hpid (hroute ▸ congrArg identifierPid hsame)

def step (reg : Registry σ κ) : StreamOperation σ κ → Registry σ κ
  | .addStream r => if reg.live.length < maxStreams then reg.add r else reg
  | .removeStream identifier => reg.remove identifier

/-- The packets are taken from here on. -/
def settled (reg : Registry σ κ) : Registry σ κ := { reg with added := false }

/-- The registration a packet is for: a valid packet with a payload is for the one its
PID is routed to, unless that wants the other priority. -/
def addressee (reg : Registry σ κ) (p : List Byte) : Option (Registration σ κ) :=
  if valid p ∧ payload p ≠ [] then (reg.routes (pid p)).filter (·.wants p) else none

theorem addressee_live {reg : Registry σ κ} {p : List Byte} {r : Registration σ κ}
    (h : reg.addressee p = some r) :
    r ∈ reg.live ∧ identifierPid r.identifier = pid p ∧ r.wants p := by
  unfold addressee at h
  split at h
  · obtain ⟨hroute, hwants⟩ := Option.filter_eq_some_iff.mp h
    obtain ⟨hlive, hpid⟩ := reg.routed hroute
    exact ⟨hlive, hpid, hwants⟩
  · exact nomatch h

section

variable (descriptor : δ) (packet : Nat → List Byte)
variable (between : Nat → List (StreamOperation σ κ)) (overflows : Nat → Bool)

/-- The packets from the `k`th on, `n` of them: before packet `k` the streams change by
`between k`, and `overflows k` is whether the collator it is for has no room for it. -/
def deliver : Nat → Nat → Registry σ κ → Registry σ κ × List (Delivery κ δ)
  | _, 0, reg => (reg, [])
  | k, n + 1, reg =>
    let reg := (between k).foldl step reg
    match reg.addressee (packet k) with
    | none => deliver (k + 1) n reg
    | some r =>
      let delivery := ⟨r.collator, descriptor, payload (packet k)⟩
      if overflows k then (reg, [delivery])
      else
        let rest := deliver (k + 1) n reg
        (rest.1, delivery :: rest.2)

variable {descriptor packet between overflows} {k n : Nat} {reg : Registry σ κ}

theorem deliver_nobody (h : ((between k).foldl step reg).addressee (packet k) = none) :
    deliver descriptor packet between overflows k (n + 1) reg
      = deliver descriptor packet between overflows (k + 1) n ((between k).foldl step reg) := by
  rw [deliver]
  simp only [h]

theorem deliver_overflow {r : Registration σ κ}
    (h : ((between k).foldl step reg).addressee (packet k) = some r) (hfull : overflows k = true) :
    deliver descriptor packet between overflows k (n + 1) reg
      = ((between k).foldl step reg, [⟨r.collator, descriptor, payload (packet k)⟩]) := by
  rw [deliver]
  simp only [h, hfull, if_true]

theorem deliver_taken {r : Registration σ κ}
    (h : ((between k).foldl step reg).addressee (packet k) = some r) (hroom : overflows k = false) :
    deliver descriptor packet between overflows k (n + 1) reg
      = ((deliver descriptor packet between overflows (k + 1) n ((between k).foldl step reg)).1,
        ⟨r.collator, descriptor, payload (packet k)⟩ ::
          (deliver descriptor packet between overflows (k + 1) n ((between k).foldl step reg)).2) := by
  rw [deliver]
  simp only [h, hroom, Bool.false_eq_true, if_false]

end

end Registry

end Duckbox.Demultiplexor
