import Duckbox.Demultiplexor.TsTables

/-!
# Demultiplexing is exact

The demultiplexor simulates an ideal one, which has a registry in place of the tables
and takes the packets of a buffer one by one (`demux_simulates`): the body of the loop
calls the collator a packet is for with its payload (`handlePacket_spec`), and the loop
goes through a buffer of whole packets and ends (`packetLoop_spec`). So whatever streams
come and go and whatever bytes are in the buffers, every run comes to an end with the
calls made that the ideal one makes (`demux_exact`).

The ideal one leaves packets out for three reasons: the stream asks for the other
priority, the collator of an earlier packet of the buffer had no room, or the buffer does
not hold whole packets.
-/

namespace Duckbox.Demultiplexor

open Duckbox.Lib Packet

variable {σ κ δ : Type}

/-! ## One packet -/

/-- The call of `Input` that a packet comes to, if any. -/
def delivery (descriptor : δ) (p : List Byte) (who : Option (Registration σ κ)) :
    List (Delivery κ δ) :=
  (who.map fun r => ⟨r.collator, descriptor, payload p⟩).toList

section

variable {s : DemultiplexorTs σ κ δ} {reg : Registry σ κ} {data : List Byte} {at_ : Nat}

/-- What the body of the loop leaves of the demultiplexor. -/
structure Handled (reg : Registry σ κ) (s t : DemultiplexorTs σ κ δ)
    (calls : List (Delivery κ δ)) : Prop where
  refines : Refines t.context reg
  extra : t.context.bluRayExtraData = s.context.bluRayExtraData
  delivered : t.delivered = s.delivered ++ calls

theorem refines_notePacket (h : Refines s.context reg) (entry : Fin maxStreams)
    (header : UnsignedInt) (valid : Bool) :
    Refines { s.context with
      streams := Function.update s.context.streams entry
        (notePacket header valid (s.context.streams entry)) } reg where
  live := h.live
  held := h.held
  unrouted := h.unrouted
  routed := h.routed
  priority := by
    intro i r hr
    have hbefore := h.priority i r hr
    show (Function.update s.context.streams entry _ i).selectOnPriority = _ ∧
      (Function.update s.context.streams entry _ i).desiredPriority = _
    by_cases hi : i = entry
    · subst hi
      rw [Function.update_self]
      exact hbefore
    · rw [Function.update_of_ne hi]
      exact hbefore
  added := h.added

theorem handlePacket_spec (h : Refines s.context reg) (hin : at_ + dvbPacketSize ≤ data.length)
    (descriptor : δ) (overflows : Bool) :
    ∃ t, handlePacket descriptor data at_ overflows s
        = some ((reg.addressee (packetFrom data at_)).isSome && overflows, t) ∧
      Handled reg s t
        (delivery descriptor (packetFrom data at_) (reg.addressee (packetFrom data at_))) := by
  have hlen := packetFrom_length hin
  have hpayload := payload_ne_nil _ hlen
  have hheader := packetHeader_eq hin
  obtain ⟨valid', hadapt⟩ := adaptation_eq hin
  have hslice := fun hoff : dataOffset (packetFrom data at_) ≤ dvbPacketSize => slice_eq hin hoff
  generalize packetFrom data at_ = p at *
  unfold handlePacket
  simp only [hheader, Option.bind_eq_bind, Option.bind_some, dvbPid_header]
  by_cases hzero : s.context.pidTable (pid p) = 0
  · -- no stream has the PID
    have hnobody : reg.addressee p = none := by
      unfold Registry.addressee
      rw [h.unrouted _ hzero, Option.filter_none, ite_self]
    rw [if_pos hzero, hnobody]
    exact ⟨s, rfl, h, rfl, (List.append_nil _).symm⟩
  · obtain ⟨entry, r, hnumber, hr, hroute⟩ := h.routed _ hzero
    have hentry : (s.context.pidTable (pid p)).toNat - 1 = entry := by omega
    have hbound : (s.context.pidTable (pid p)).toNat - 1 < maxStreams := hentry ▸ entry.isLt
    have hfin : (⟨(s.context.pidTable (pid p)).toNat - 1, hbound⟩ : Fin maxStreams) = entry :=
      Fin.ext hentry
    have haddressee : reg.addressee p
        = if valid p ∧ payload p ≠ [] then (some r).filter (·.wants p) else none := by
      unfold Registry.addressee
      rw [hroute]
    rw [if_neg hzero, dif_pos hbound, hfin, dvbValidPacket_header]
    by_cases hvalid : valid p = true
    · obtain ⟨hselect, hdesired⟩ := h.priority entry r hr
      have hnoted := refines_notePacket h entry (header p) valid'
      have hwants : ((notePacket (header p) valid' (s.context.streams entry)).selectOnPriority &&
          (notePacket (header p) valid' (s.context.streams entry)).desiredPriority
            != dvbPriority (header p)) = !r.wants p := by
        rw [dvbPriority_header]
        show ((s.context.streams entry).selectOnPriority &&
          (s.context.streams entry).desiredPriority != priority p) = _
        rw [hselect, hdesired]
        unfold Registration.wants
        rw [Bool.not_or, Bool.not_not]
        rfl
      simp only [hvalid, Bool.not_true, Bool.false_eq_true, if_false, hadapt, Option.bind_some,
        hwants]
      by_cases hr' : r.wants p = true
      · simp only [hr', Bool.not_true, Bool.false_eq_true, if_false, dvbPayloadPresent_header]
        by_cases hgiven : payloadPresent p ∧ dataOffset p < dvbPacketSize
        · have hto : reg.addressee p = some r := by
            rw [haddressee, if_pos ⟨hvalid, hpayload.mpr hgiven⟩]
            simp [Option.filter, hr']
          have hdata : payload p = p.drop (dataOffset p) := if_pos hgiven.1
          rw [if_pos hgiven, passOn, collator_of_registrationAt hr, hslice (Nat.le_of_lt hgiven.2),
            hto, ← hdata]
          exact ⟨_, rfl, hnoted, rfl, rfl⟩
        · have hnobody : reg.addressee p = none := by
            rw [haddressee, if_neg fun hand => hgiven (hpayload.mp hand.2)]
          rw [if_neg hgiven, hnobody]
          exact ⟨_, rfl, hnoted, rfl, (List.append_nil _).symm⟩
      · -- the stream wants the other priority
        have hnobody : reg.addressee p = none := by
          rw [haddressee]
          simp [Option.filter, hr']
        simp only [hr', Bool.not_false, if_true]
        rw [hnobody]
        exact ⟨_, rfl, hnoted, rfl, (List.append_nil _).symm⟩
    · have hnobody : reg.addressee p = none := by
        rw [haddressee, if_neg fun hand => hvalid hand.1]
      simp only [hvalid, Bool.not_false, if_true]
      rw [hnobody]
      exact ⟨s, rfl, h, rfl, (List.append_nil _).symm⟩

theorem bluRayExtraData_streamOperations (ops : List (StreamOperation σ κ)) :
    ∀ c : Context σ κ, (ops.foldl streamOperation c).bluRayExtraData = c.bluRayExtraData := by
  induction ops with
  | nil => exact fun _ => rfl
  | cons op ops ih =>
    intro c
    refine (ih (streamOperation c op)).trans ?_
    cases op with
    | removeStream identifier => rfl
    | addStream r =>
      show (addStream r c).2.bluRayExtraData = _
      cases hfree : firstFree fun i => (c.baseStreams i).stream with
      | none => rw [addStream_full hfree]
      | some i => rw [addStream_free hfree]; rfl

theorem Handled.trans {reg' : Registry σ κ} {t u : DemultiplexorTs σ κ δ}
    {calls calls' : List (Delivery κ δ)} (h : Handled reg s t calls)
    (h' : Handled reg' t u calls') : Handled reg' s u (calls ++ calls') where
  refines := h'.refines
  extra := h'.extra.trans h.extra
  delivered := by rw [h'.delivered, h.delivered, List.append_assoc]

/-! ## The packets of a buffer -/

/-- Packet `k` of a buffer whose packets each have so many bytes before them. -/
def packetAt (data : List Byte) (extra k : Nat) : List Byte :=
  packetFrom data (k * (dvbPacketSize + extra) + extra)

theorem packetLoop_spec (descriptor : δ) (env : Environment σ κ) {extra : Nat}
    (hlt : data.length < 2 ^ 32) (n : Nat) :
    ∀ {fuel k : Nat} {s : DemultiplexorTs σ κ δ} {reg : Registry σ κ}, n < fuel →
      (k + n) * (dvbPacketSize + extra) = data.length →
      s.context.bluRayExtraData = extra → Refines s.context reg →
      ∃ status t, packetLoop descriptor data env fuel k (k * (dvbPacketSize + extra)) s
          = some (status, t) ∧
        Handled (reg.deliver descriptor (packetAt data extra) env.between env.overflows k n).1 s t
          (reg.deliver descriptor (packetAt data extra) env.between env.overflows k n).2 := by
  induction n with
  | zero =>
    intro fuel k s reg hfuel hsize hextra h
    obtain ⟨fuel, rfl⟩ : ∃ m, fuel = m + 1 := ⟨fuel - 1, by omega⟩
    rw [Nat.add_zero] at hsize
    rw [packetLoop, if_pos hsize]
    exact ⟨_, s, rfl, h, rfl, (List.append_nil _).symm⟩
  | succ n ih =>
    intro fuel k s reg hfuel hsize hextra h
    obtain ⟨fuel, rfl⟩ : ∃ m, fuel = m + 1 := ⟨fuel - 1, by omega⟩
    have hnext : (k + 1) * (dvbPacketSize + extra)
        = k * (dvbPacketSize + extra) + (dvbPacketSize + extra) := Nat.succ_mul _ _
    have hroom : (k + 1) * (dvbPacketSize + extra) ≤ data.length := by
      rw [← hsize]
      exact Nat.mul_le_mul_right _ (by omega)
    have hmore : k * (dvbPacketSize + extra) ≠ data.length := by
      have hpos : 0 < dvbPacketSize + extra := by
        show 0 < 188 + extra
        omega
      omega
    -- the streams that come and go before the packet
    have hstreams := refines_streamOperations h (env.between k)
    have hkept := bluRayExtraData_streamOperations (env.between k) s.context
    rw [hextra] at hkept
    have hstart : k * (dvbPacketSize + extra) + extra + dvbPacketSize ≤ data.length := by omega
    obtain ⟨t, hpacket, ht⟩ := handlePacket_spec
      (s := { s with context := (env.between k).foldl streamOperation s.context }) hstreams hstart
      descriptor (env.overflows k)
    have hagain := ht.extra.trans hkept
    have hbefore : Handled ((env.between k).foldl Registry.step reg) s
        { s with context := (env.between k).foldl streamOperation s.context } [] :=
      ⟨hstreams, hkept.trans hextra.symm, (List.append_nil _).symm⟩
    replace ht := hbefore.trans ht
    have hword : (k * (dvbPacketSize + extra) + (dvbPacketSize + extra)) % 2 ^ 32
        = (k + 1) * (dvbPacketSize + extra) := by
      rw [hnext]
      exact Nat.mod_eq_of_lt (by omega)
    have hleft : (k + 1 + n) * (dvbPacketSize + extra) = data.length := by
      rw [← hsize]
      congr 1
      omega
    obtain ⟨status, u, hloop, hu⟩ := ih (Nat.lt_of_succ_lt_succ hfuel) hleft hagain ht.refines
    rw [packetLoop, if_neg hmore]
    dsimp only
    rw [hkept, hpacket]
    simp only [Option.bind_eq_bind, Option.bind_some, hagain, hword]
    cases hto : ((env.between k).foldl Registry.step reg).addressee (packetAt data extra k) with
    | none =>
      have hto' := hto
      unfold packetAt at hto'
      rw [hto'] at ht ⊢
      rw [Registry.deliver_nobody hto]
      exact ⟨status, u, hloop, ht.trans hu⟩
    | some r =>
      have hto' := hto
      unfold packetAt at hto'
      rw [hto'] at ht ⊢
      cases hover : env.overflows k with
      | true =>
        rw [Registry.deliver_overflow hto hover]
        exact ⟨_, t, rfl, ht⟩
      | false =>
        rw [Registry.deliver_taken hto hover]
        exact ⟨status, u, hloop, ht.trans hu⟩

end

/-! ## How long the packets are -/

section

variable {data : List Byte}

/-- The first eight packets of 192 bytes begin, a stride apart, with sync bytes. -/
def Synced (data : List Byte) (stride offset : Nat) : Prop :=
  ∀ i < min (data.length / (dvbPacketSize + 4)) 8,
    data.getD (offset + stride * i) 0 = dvbSyncByte

instance (data : List Byte) (stride offset : Nat) : Decidable (Synced data stride offset) :=
  inferInstanceAs (Decidable (∀ i < min (data.length / (dvbPacketSize + 4)) 8,
    data.getD (offset + stride * i) 0 = dvbSyncByte))

/-- What is before each packet of a buffer: four bytes if it is made of packets of 192
bytes, where it could be made of either if they are synced so and not the other way. -/
def extraOf (data : List Byte) : Nat :=
  if data.length % (dvbPacketSize + 4) = 0 ∧ (data.length % dvbPacketSize = 0 →
      ¬ Synced data dvbPacketSize 0 ∧ Synced data (dvbPacketSize + 4) 4) then 4
  else 0

/-- That of the buffer before, unless a stream was added or the length does not fit. -/
def framing (extra : Nat) (added : Bool) (data : List Byte) : Nat :=
  if added ∨ data.length % (dvbPacketSize + extra) ≠ 0 then extraOf data else extra

theorem syncRun_spec (stride offset n : Nat) :
    ∀ {i : Nat}, (∀ j, j < i + n → offset + stride * j < data.length) →
      ∃ j, syncRun data stride offset n i = some j ∧
        (j = i + n ↔ ∀ k, i ≤ k → k < i + n → data.getD (offset + stride * k) 0 = dvbSyncByte) := by
  induction n with
  | zero =>
    intro i _
    exact ⟨i, rfl, iff_of_true rfl fun k hle hlt => absurd hlt (Nat.not_lt.mpr hle)⟩
  | succ n ih =>
    intro i hin
    have hi : offset + stride * i < data.length := hin i (by omega)
    have hread : data.getD (offset + stride * i) 0 = data[offset + stride * i] :=
      List.getD_eq_getElem _ _ hi
    rw [syncRun, List.getElem?_eq_getElem hi]
    simp only [Option.bind_eq_bind, Option.bind_some]
    split
    · next hbad =>
      refine ⟨i, rfl, iff_of_false (by omega) fun hall => hbad ?_⟩
      rw [← hread]
      exact hall i (Nat.le_refl i) (by omega)
    · next hgood =>
      obtain ⟨j, hj, hiff⟩ := ih (i := i + 1) fun j hlt => hin j (by omega)
      refine ⟨j, hj, ?_⟩
      rw [show i + (n + 1) = i + 1 + n by omega, hiff]
      refine ⟨fun hall k hle hlt => ?_, fun hall k hle hlt => hall k (by omega) hlt⟩
      by_cases hk : k = i
      · rw [hk, hread]
        exact Decidable.of_not_not hgood
      · exact hall k (by omega) hlt

theorem syncRun_synced (stride offset : Nat)
    (hin : ∀ j < min (data.length / (dvbPacketSize + 4)) 8, offset + stride * j < data.length) :
    ∃ j, syncRun data stride offset (min (data.length / (dvbPacketSize + 4)) 8) 0 = some j ∧
      (j = min (data.length / (dvbPacketSize + 4)) 8 ↔ Synced data stride offset) := by
  obtain ⟨j, hj, hiff⟩ := syncRun_spec stride offset
    (min (data.length / (dvbPacketSize + 4)) 8) (i := 0) fun j hlt => hin j (by omega)
  rw [Nat.zero_add] at hiff
  exact ⟨j, hj, hiff.trans ⟨fun h k hlt => h k (Nat.zero_le k) hlt, fun h k _ hlt => h k hlt⟩⟩

theorem detectExtraData_eq : detectExtraData data = some (extraOf data) := by
  have hpackets : ∀ j < min (data.length / (dvbPacketSize + 4)) 8, 192 * j + 192 ≤ data.length := by
    intro j hlt
    have hle : j + 1 ≤ data.length / 192 := Nat.le_trans hlt (Nat.min_le_left _ _)
    have hmul := Nat.mul_le_of_le_div _ _ _ hle
    omega
  obtain ⟨i, hi, hshort⟩ := syncRun_synced dvbPacketSize 0 fun j hlt => by
    have hj := hpackets j hlt
    show 0 + 188 * j < _
    omega
  obtain ⟨i', hi', hlong⟩ := syncRun_synced (dvbPacketSize + 4) 4
    fun j hlt => by
      have hj := hpackets j hlt
      show 4 + 192 * j < _
      omega
  unfold detectExtraData extraOf
  simp only [hi, hi', Option.bind_eq_bind, Option.bind_some, ne_eq, hshort, hlong]
  by_cases h192 : data.length % (dvbPacketSize + 4) = 0
  · by_cases h188 : data.length % dvbPacketSize = 0
    · by_cases hs : Synced data dvbPacketSize 0
      · simp [h192, h188, hs]
      · by_cases hl : Synced data (dvbPacketSize + 4) 4
        · simp [h192, h188, hs, hl]
        · simp [h192, h188, hs, hl]
    · simp [h192, h188]
  · simp [h192]

theorem settleExtraData_eq (c : Context σ κ) : settleExtraData data c = some { c with
    bluRayExtraData := framing c.bluRayExtraData c.addedNewStream data
    addedNewStream := false } := by
  unfold settleExtraData framing
  split
  · rw [detectExtraData_eq]
    rfl
  · next h =>
    have hold : c.addedNewStream = false := Bool.eq_false_iff.mpr fun hadded => h (.inl hadded)
    rw [← hold]
    rfl

end

/-! ## Runs -/

/-- What a demultiplexor is for: a registry, the framing of the buffers, and the calls
of `Input` that packets have come to. -/
structure Ideal (σ κ δ : Type) where
  registry : Registry σ κ
  extra : Nat
  delivered : List (Delivery κ δ)

def Ideal.created : Ideal σ κ δ := ⟨Registry.empty, 0, []⟩

/-- A buffer that does not hold whole packets is refused. Otherwise all of its packets
are taken in order, or as many as the collators have room for. -/
def Ideal.demux (ideal : Ideal σ κ δ) (buffer : Buffer δ) (env : Environment σ κ) :
    Ideal σ κ δ :=
  match buffer.inputDescriptor, buffer.bufferData with
  | .ok descriptor, .ok data =>
    let extra := framing ideal.extra ideal.registry.added data
    if data.length % (dvbPacketSize + extra) ≠ 0 then
      { ideal with registry := ideal.registry.settled, extra := extra }
    else
      let taken := ideal.registry.settled.deliver descriptor (packetAt data extra) env.between
        env.overflows 0 (data.length / (dvbPacketSize + extra))
      ⟨taken.1, extra, ideal.delivered ++ taken.2⟩
  | _, _ => ideal

def Ideal.step (ideal : Ideal σ κ δ) : Operation σ κ δ → Ideal σ κ δ
  | .stream operation => { ideal with registry := ideal.registry.step operation }
  | .demux buffer env => ideal.demux buffer env

/-- The demultiplexor is in the state of an ideal one. -/
structure Simulates (s : DemultiplexorTs σ κ δ) (ideal : Ideal σ κ δ) : Prop where
  refines : Refines s.context ideal.registry
  extra : s.context.bluRayExtraData = ideal.extra
  delivered : s.delivered = ideal.delivered

theorem refines_settled {c : Context σ κ} {reg : Registry σ κ} (h : Refines c reg) (extra : Nat) :
    Refines { c with bluRayExtraData := extra, addedNewStream := false } reg.settled where
  live := h.live
  held := h.held
  unrouted := h.unrouted
  routed := h.routed
  priority := h.priority
  added := rfl

theorem demux_simulates {s : DemultiplexorTs σ κ δ} {ideal : Ideal σ κ δ} (h : Simulates s ideal)
    (buffer : Buffer δ) (env : Environment σ κ) :
    ∃ status t, demux buffer env s = some (status, t) ∧
      Simulates t (ideal.demux buffer env) := by
  unfold demux Ideal.demux
  cases hd : buffer.inputDescriptor with
  | error status => exact ⟨_, s, rfl, h⟩
  | ok descriptor =>
    cases hb : buffer.bufferData with
    | error status => exact ⟨_, s, rfl, h⟩
    | ok data =>
      dsimp only
      rw [settleExtraData_eq, h.extra, h.refines.added]
      generalize framing ideal.extra ideal.registry.added data = extra
      have hsettled := refines_settled h.refines extra
      simp only [Option.bind_eq_bind, Option.bind_some]
      by_cases hwhole : data.length % (dvbPacketSize + extra) ≠ 0
      · rw [if_pos hwhole, if_pos hwhole]
        exact ⟨_, _, rfl, hsettled, rfl, h.delivered⟩
      · rw [if_neg hwhole, if_neg hwhole]
        have hsize : (0 + data.length / (dvbPacketSize + extra)) * (dvbPacketSize + extra)
            = data.length := by
          rw [Nat.zero_add]
          exact Nat.div_mul_cancel (Nat.dvd_of_mod_eq_zero (Decidable.of_not_not hwhole))
        have hfuel : data.length / (dvbPacketSize + extra) < data.length + 1 :=
          Nat.lt_succ_of_le (Nat.div_le_self _ _)
        obtain ⟨status, t, hloop, ht⟩ := packetLoop_spec descriptor env (buffer.length_lt hb) _
          hfuel hsize (s := { s with context := { s.context with
            bluRayExtraData := extra, addedNewStream := false } }) rfl hsettled
        rw [Nat.zero_mul] at hloop
        refine ⟨status, t, hloop, ht.refines, ht.extra, ?_⟩
        rw [ht.delivered, h.delivered]

theorem step_simulates {s : DemultiplexorTs σ κ δ} {ideal : Ideal σ κ δ} (h : Simulates s ideal)
    (op : Operation σ κ δ) : ∃ t, step s op = some t ∧ Simulates t (ideal.step op) := by
  cases op with
  | stream operation =>
    refine ⟨_, rfl, refines_streamOperation h.refines operation, ?_, h.delivered⟩
    exact (bluRayExtraData_streamOperations [operation] s.context).trans h.extra
  | demux buffer env =>
    obtain ⟨status, t, hdemux, ht⟩ := demux_simulates h buffer env
    exact ⟨t, congrArg (Option.map Prod.snd) hdemux, ht⟩

theorem run_simulates (ops : List (Operation σ κ δ)) :
    ∀ {s : DemultiplexorTs σ κ δ} {ideal : Ideal σ κ δ}, Simulates s ideal →
      ∃ t, run step s ops = some t ∧ Simulates t (ops.foldl Ideal.step ideal) := by
  induction ops with
  | nil => exact fun {s ideal} h => ⟨s, rfl, h⟩
  | cons op ops ih =>
    intro s ideal h
    obtain ⟨t, hstep, ht⟩ := step_simulates h op
    obtain ⟨u, hrun, hu⟩ := ih ht
    refine ⟨u, ?_, hu⟩
    rw [run_cons, hstep]
    exact hrun

theorem run_created (ops : List (Operation σ κ δ)) : ∃ s, run step created ops = some s ∧
    s.delivered = (ops.foldl Ideal.step Ideal.created).delivered := by
  have hcreated : Simulates (created : DemultiplexorTs σ κ δ) Ideal.created :=
    ⟨refines_createContext, rfl, rfl⟩
  obtain ⟨s, hrun, hs⟩ := run_simulates ops hcreated
  exact ⟨s, hrun, hs.delivered⟩

/-- Every run of a new demultiplexor comes to an end, with no read past a buffer, and
has called the collators as the ideal one does: each with the payloads of the packets
that are for its stream, whole and in order. The next packet is for a stream that is
still registered. -/
theorem demux_exact (ops : List (Operation σ κ δ)) :
    (∃ s, run step created ops = some s ∧
      s.delivered = (ops.foldl Ideal.step Ideal.created).delivered) ∧
    ∀ p r, (ops.foldl Ideal.step Ideal.created).registry.addressee p = some r →
      r ∈ (ops.foldl Ideal.step Ideal.created).registry.live ∧
        identifierPid r.identifier = pid p ∧ r.wants p :=
  ⟨run_created ops, fun _ _ => Registry.addressee_live⟩

/-! ## Packets that go to nobody -/

/-- A packet of PID 256 that has no priority. -/
def plainPacket : List Byte := [0x47, 0x01, 0x00, 0x10] ++ List.replicate 184 0xff

def plainBuffer : Buffer Unit where
  inputDescriptor := .ok ()
  bufferData := .ok (plainPacket ++ plainPacket)
  length_lt := by
    intro data h
    cases h
    decide +kernel

/-- A stream of PID 256, with this much more in its identifier. -/
def listener (flags : UnsignedInt) : Registration Nat Nat := ⟨1, 2, 256 ||| flags⟩

/-- It is added, and two packets come. -/
def twoPackets (flags : UnsignedInt) (overflows : Nat → Bool) : List (Operation Nat Nat Unit) :=
  [.stream (.addStream (listener flags)), .demux plainBuffer ⟨fun _ => [], overflows⟩]

/-- Both packets are valid and have a payload, and a stream is registered for their PID
throughout. None is delivered where it asks for the other priority, and only the first
where its collator then has no room. -/
theorem valid_packets_dropped :
    valid plainPacket = true ∧ payload plainPacket = List.replicate 184 0xff ∧
    ((twoPackets 0x6000 fun _ => false).foldl Ideal.step
      Ideal.created).registry.routes (pid plainPacket) = some (listener 0x6000) ∧
    ((twoPackets 0 fun _ => true).foldl Ideal.step
      Ideal.created).registry.routes (pid plainPacket) = some (listener 0) ∧
    (∃ s, run step created (twoPackets 0x6000 fun _ => false) = some s ∧ s.delivered = []) ∧
    ∃ s, run step created (twoPackets 0 fun _ => true) = some s ∧
      s.delivered = [⟨2, (), List.replicate 184 0xff⟩] := by
  obtain ⟨s, hs, hnone⟩ := run_created (twoPackets 0x6000 fun _ => false)
  obtain ⟨t, ht, hone⟩ := run_created (twoPackets 0 fun _ => true)
  refine ⟨by decide +kernel, by decide +kernel, by decide +kernel, by decide +kernel,
    ⟨s, hs, ?_⟩, t, ht, ?_⟩
  · rw [hnone]
    decide +kernel
  · rw [hone]
    decide +kernel

end Duckbox.Demultiplexor
