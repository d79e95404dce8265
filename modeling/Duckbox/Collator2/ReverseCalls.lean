import Duckbox.Collator2.SpanningCount

/-!
# A call of `Input` in reverse play

The places a call goes through in reverse play (`Place.backward`): wherever it is, what is
done there leaves it at another of them, with no more data than before, and the look for a
code comes where there is room for the bytes of one (`stage_goesOn`). What is done beside
it, by a flush or a discard that is let in, leaves that so.
-/

namespace Duckbox.Collator2

open BufferPool (UnsignedInt)
open Player (PlayDirection)
open Collator (Byte Remaining isPesStartCodeVideo pesPaddingStartCode)

/-! ## A call in reverse play -/

/-- The places of such a call. -/
def Place.backward : Place → Bool
  | .entry .. | .top _ | .scanBackward | .code _ | .mark _ | .close _ | .roomBackward _ | .exit _ => true
  | .header | .complete | .terminate .. | .terminated .. | .record .. | .room | .skip | .scan
  | .found => false

theorem Collator2Base.step_direction (c : Configuration) (s : Collator2Base) (op : Operation)
    (hop : ∀ direction, op ≠ .setDirection direction) :
    (s.step c op).playDirection = s.playDirection := by
  cases op with
  | setDirection direction => exact absurd rfl (hop direction)
  | inputEntry input nonBlocking pool =>
    show (s.inputEntry c pool input nonBlocking).2.playDirection = _
    unfold inputEntry
    simp only
    split
    · obtain ⟨n, -, hcounters⟩ := partitionOutput_counters c pool
        { s.noteDescriptor input with nonBlockingInput := nonBlocking }
      exact congrArg Counters.direction hcounters
    · rfl
  | inputExit pool =>
    show (s.inputExit c pool).2.playDirection = _
    unfold inputExit
    split
    · obtain ⟨n, -, hcounters⟩ := partitionOutput_counters c pool s
      exact congrArg Counters.direction hcounters
    · rfl
  | partitionOutput pool =>
    obtain ⟨n, -, hcounters⟩ := partitionOutput_counters c pool s
    exact congrArg Counters.direction hcounters
  | accumulateData data pool =>
    obtain ⟨n, -, -, hcounters⟩ := accumulateData_counters c s pool data
    exact congrArg Counters.direction hcounters
  | accumulateStartCode code =>
    exact congrArg Counters.direction (counters_accumulateStartCode c s code)
  | releaseHeader size => rfl
  | emptyCurrentPartition => rfl
  | dumpCurrentPartition => rfl
  | accumulateOnePartition times pool =>
    obtain ⟨-, hsame⟩ | ⟨-, n, -, -, hcounters⟩ := accumulateOneVideoPartition_counters c s pool times
    · exact congrArg Counters.direction hsame
    · exact congrArg Counters.direction hcounters
  | noteHeaderFlags flags => rfl
  | setTimes times => rfl
  | setDiscardingData discarding => rfl
  | setNonBlockingInput nonBlocking => rfl
  | markSafeToOutput =>
    show (if s.playDirection = _ then _ else s).playDirection = _
    split <;> rfl
  | moveMarkers =>
    show (if s.playDirection = _ then _ else s).playDirection = _
    split <;> rfl
  | recordPacketHeader size times =>
    show (if s.playDirection = _ then _ else s).playDirection = _
    split
    · unfold recordPacketHeader
      simp only
      split <;> rfl
    · rfl
  | flushMarkers => rfl
  | discardAccumulatedData =>
    exact congrArg Counters.direction (s.iterate_discardPartition_counters _)
  | signalDiscontinuity surplus continuous => rfl

theorem Collator2Base.foldl_direction (c : Configuration) (ops : List Operation) (s : Collator2Base)
    (hops : ∀ op ∈ ops, ∀ direction, op ≠ .setDirection direction) :
    (ops.foldl (step c) s).playDirection = s.playDirection := by
  induction ops generalizing s with
  | nil => rfl
  | cons op ops ih =>
    have hfirst := s.step_direction c op (hops op List.mem_cons_self)
    exact (ih _ fun op' hmem => hops op' (List.mem_cons_of_mem _ hmem)).trans hfirst

/-- What goes on is in reverse play, with no more data than so much, and with room where the
look for a code is to come. -/
def Session.GoesOn (bound : Nat) (m : Session) : Prop :=
  ∀ r place, m.input = some (r, place) →
    m.collator.base.playDirection = .playBackward ∧ place.backward = true ∧
      (place = .scanBackward →
        minimumAccumulationHeadroom ≤ m.collator.base.codedFrameBufferFreeSpace) ∧
        r.length.toNat ≤ bound

theorem Session.goesOn_none (bound : Nat) (s : PesVideo) : Session.GoesOn bound ⟨s, none⟩ :=
  fun _ _ h => nomatch h

theorem Session.goesOn_ite {p : Prop} [Decidable p] {bound : Nat} {m n : Session}
    (hm : m.GoesOn bound) (hn : n.GoesOn bound) : (if p then m else n).GoesOn bound := by
  split
  · exact hm
  · exact hn

namespace PesVideo

section

variable {c : VideoConfiguration} {env : Environment} {s : PesVideo} {r : Remaining} {bound : Nat}

theorem goTo_goesOn {place : Place} (hdirection : s.base.playDirection = .playBackward)
    (hplace : place.backward = true) (hscan : place ≠ .scanBackward) (hle : r.length.toNat ≤ bound) :
    (s.goTo r place).GoesOn bound := by
  rintro r' place' h
  obtain ⟨rfl, rfl⟩ := Prod.mk.inj (Option.some.inj h)
  exact ⟨hdirection, hplace, fun hscan' => absurd hscan' hscan, hle⟩

theorem turn_goesOn (hdirection : s.base.playDirection = .playBackward) (hshort : s.short = false)
    (hle : r.length.toNat ≤ bound) : (s.turn r).GoesOn bound := by
  unfold turn
  unfold short at hshort
  rw [hdirection] at hshort ⊢
  rintro r' place' h
  obtain ⟨rfl, rfl⟩ := Prod.mk.inj (Option.some.inj h)
  exact ⟨hdirection, rfl, fun _ => BitVec.not_lt.mp (of_decide_eq_false hshort), hle⟩

theorem base_step_direction (hdirection : s.base.playDirection = .playBackward) (op : Operation)
    (hop : ∀ direction, op ≠ .setDirection direction) :
    (s.base.step c.toConfiguration op).playDirection = .playBackward :=
  (Collator2Base.step_direction _ _ op hop).trans hdirection

theorem topStage_goesOn (hdirection : s.base.playDirection = .playBackward) (pool : PoolAnswers)
    (status : CollatorStatus) :
    (s.perform c (s.topStage pool r status)).GoesOn r.length.toNat := by
  unfold perform topStage
  by_cases hlength : r.length = 0
  · rw [if_pos hlength]
    exact goTo_goesOn hdirection rfl (fun h => nomatch h) (Nat.le_refl _)
  · rw [if_neg hlength]
    by_cases hshort : s.short = true
    · rw [if_pos hshort]
      have hdirection' := base_step_direction (c := c) hdirection (.partitionOutput pool)
        fun _ h => nomatch h
      dsimp only
      split
      · exact goTo_goesOn hdirection' rfl (fun h => nomatch h) (Nat.le_refl _)
      · split
        · exact goTo_goesOn hdirection' rfl (fun h => nomatch h) (Nat.le_refl _)
        · next hroom => exact turn_goesOn hdirection' (Bool.eq_false_iff.mpr hroom) (Nat.le_refl _)
    · rw [if_neg hshort]
      exact turn_goesOn hdirection (Bool.eq_false_iff.mpr hshort) (Nat.le_refl _)

theorem scanBackwardStage_goesOn (hdirection : s.base.playDirection = .playBackward)
    (pool : PoolAnswers) (hcapture : ∀ capture ∈ s.capture c r, capture ≤ r.length) :
    (s.perform c (s.scanBackwardStage c pool r)).GoesOn r.length.toNat := by
  unfold PesVideo.capture at hcapture
  unfold perform scanBackwardStage
  cases haccumulation : accumulationToCaptureCode c.codes.ignored s.partitionByte
      s.base.nextPartition.partitionSize r with
  | none =>
    have hdirection' := base_step_direction (c := c) hdirection (.accumulateData r.bytes pool)
      fun _ h => nomatch h
    dsimp only
    unfold accumulatedRest
    dsimp only
    refine goTo_goesOn ?_ rfl (fun h => nomatch h) ?_
    · split
      · exact hdirection'
      · exact hdirection'
    · split
      · exact Nat.zero_le _
      · exact Nat.le_refl _
  | some capture =>
    have hle := hcapture capture haccumulation
    have hdirection' := base_step_direction (c := c) hdirection
      (.accumulateData (r.read (r.length - capture) capture.toNat) pool) fun _ h => nomatch h
    dsimp only
    split
    · exact goTo_goesOn hdirection' rfl (fun h => nomatch h) (Nat.le_refl _)
    · refine goTo_goesOn ?_ rfl (fun h => nomatch h) ?_
      · split
        · exact hdirection'
        · exact hdirection'
      · rw [BitVec.toNat_sub_of_le hle]
        exact Nat.sub_le _ _

theorem packetHeader_goesOn (hdirection : s.base.playDirection = .playBackward) (code : Byte)
    (status : CollatorStatus) : (s.packetHeader c env r code status).GoesOn r.length.toNat := by
  have hgo : ∀ {t : PesVideo} {place : Place}, t.base.playDirection = .playBackward →
      place.backward = true → place ≠ .scanBackward → (t.goTo r place).GoesOn r.length.toNat :=
    fun hdirection hplace hscan => goTo_goesOn hdirection hplace hscan (Nat.le_refl _)
  unfold packetHeader
  dsimp only
  split
  · exact hgo hdirection rfl (fun h => nomatch h)
  · cases Pes.readPesHeader2 s.partitionByte c.codes.header env.stuffingLimit 0 s.pes with
    | none => exact hgo hdirection rfl (fun h => nomatch h)
    | some read =>
      obtain ⟨status', pes⟩ := read
      cases status' with
      | collatorNoError =>
        refine hgo ?_ rfl (fun h => nomatch h)
        unfold Collator2Base.recordPacketHeader
        dsimp only
        split <;> exact hdirection
      | collatorError => exact hgo hdirection rfl (fun h => nomatch h)
      | collatorWouldBlock => exact hgo hdirection rfl (fun h => nomatch h)
      | collatorBufferOverflow => exact hgo hdirection rfl (fun h => nomatch h)

theorem codeStage_goesOn (hdirection : s.base.playDirection = .playBackward)
    (status : CollatorStatus) :
    (s.perform c (s.codeStage c env r status)).GoesOn r.length.toNat := by
  unfold perform codeStage
  dsimp only
  by_cases hpacket : isPesStartCodeVideo (s.partitionByte 3) = true ∨
      s.partitionByte 3 = pesPaddingStartCode
  · rw [if_pos hpacket]
    exact packetHeader_goesOn hdirection _ _
  · rw [if_neg hpacket]
    have hdirection' := base_step_direction (c := c) hdirection
      (.accumulateStartCode (packStartCode s.base.nextPartition.partitionSize (s.partitionByte 3)))
      fun _ h => nomatch h
    dsimp only
    split
    · exact goTo_goesOn hdirection' rfl (fun h => nomatch h) (Nat.le_refl _)
    · unfold presentBackward
      dsimp only
      refine Session.goesOn_ite ?_ ?_
      · exact goTo_goesOn hdirection' rfl (fun h => nomatch h) (Nat.le_refl _)
      · exact goTo_goesOn hdirection' rfl (fun h => nomatch h) (Nat.le_refl _)

variable (env) in
theorem stage_goesOn (hdirection : s.base.playDirection = .playBackward) (pool : PoolAnswers)
    {place : Place} (hplace : place.backward = true)
    (hcapture : place = .scanBackward → ∀ capture ∈ s.capture c r, capture ≤ r.length) :
    (s.perform c (s.stage c env pool r place)).GoesOn r.length.toNat := by
  have hgo : ∀ {X : Operation} {t : PesVideo} {place : Place},
      t.base = s.base.step c.toConfiguration X → (∀ direction, X ≠ .setDirection direction) →
      place.backward = true → place ≠ .scanBackward → (t.goTo r place).GoesOn r.length.toNat := by
    intro X t place hbase hop hplace hscan
    exact goTo_goesOn (hbase ▸ base_step_direction hdirection X hop) hplace hscan (Nat.le_refl _)
  cases place with
  | entry input nonBlocking =>
    unfold stage perform
    dsimp only
    split
    · exact Session.goesOn_none _ _
    · exact hgo (X := .inputEntry input nonBlocking pool) rfl (fun _ h => nomatch h) rfl
        (fun h => nomatch h)
  | top status => exact topStage_goesOn hdirection pool status
  | scanBackward => exact scanBackwardStage_goesOn hdirection pool (hcapture rfl)
  | code status => exact codeStage_goesOn hdirection status
  | mark flags => exact hgo (X := .moveMarkers) rfl (fun _ h => nomatch h) rfl (fun h => nomatch h)
  | close flags =>
    exact hgo (X := .accumulateOnePartition (nextTimes s.pes).1 pool) rfl (fun _ h => nomatch h) rfl
      (fun h => nomatch h)
  | roomBackward flags =>
    unfold stage roomBackwardStage perform
    dsimp only
    by_cases hseeks : flags.confirmReversiblePoint = true ∨ s.needsRoom = true
    · rw [if_pos hseeks]
      dsimp only
      split
      · exact hgo (X := .partitionOutput pool) rfl (fun _ h => nomatch h) rfl (fun h => nomatch h)
      · exact hgo (X := .partitionOutput pool) rfl (fun _ h => nomatch h) rfl (fun h => nomatch h)
    · rw [if_neg hseeks]
      exact goTo_goesOn hdirection rfl (fun h => nomatch h) (Nat.le_refl _)
  | exit status =>
    unfold stage perform
    dsimp only
    split <;> exact Session.goesOn_none _ _
  | header | complete | terminate _ _ | terminated _ _ | record _ _ _ | room | skip | scan | found =>
    exact nomatch hplace

end

end PesVideo

/-- What is left of a call that has come to its exit is given up. -/
def Session.remaining (m : Session) : Nat :=
  match m.input with
  | none | some (_, .exit _) => 0
  | some (r, _) => r.length.toNat

/-- The data at the place where the code before is looked for. -/
def Session.scanning (m : Session) : Option Remaining :=
  match m.input with
  | some (r, .scanBackward) => some r
  | _ => none

/-- The data where a code has been captured. -/
def Session.atCode (m : Session) : Option Remaining :=
  match m.input with
  | some (r, .code _) => some r
  | _ => none

/-- A call under way is in reverse play. -/
def Session.InReverse (m : Session) : Prop := ∃ bound, m.GoesOn bound

namespace PesVideo

variable {c : VideoConfiguration} {s : PesVideo} {r : Remaining}

theorem accumulateData_few {data : List Byte} (pool : PoolAnswers)
    (hroom : minimumAccumulationHeadroom ≤ s.base.codedFrameBufferFreeSpace)
    (hfew : data.length < 4) :
    s.base.accumulateData c.toConfiguration pool data =
      if c.maximumCodedFrameSize < s.base.nextPartition.partitionSize + BitVec.ofNat 32 data.length then
        (.collatorBufferOverflow, s.base.dumpCurrentPartition c.toConfiguration)
      else (.collatorNoError, s.base.appendData data) := by
  have hfits : ¬ s.base.codedFrameBufferFreeSpace < BitVec.ofNat 32 data.length := by
    rw [BitVec.lt_def, BitVec.toNat_ofNat, Nat.mod_eq_of_lt (by omega)]
    have hroom' : 1024 ≤ s.base.codedFrameBufferFreeSpace.toNat := BitVec.le_def.mp hroom
    omega
  unfold Collator2Base.accumulateData
  dsimp only
  rw [if_neg hfits]

theorem exit_remaining (env : Environment) (pool : PoolAnswers) (r : Remaining)
    (status : CollatorStatus) :
    (s.perform c (s.stage c env pool r (.exit status))).remaining = 0 := by
  unfold stage perform
  dsimp only
  split <;> rfl

theorem scanBackwardStage_atCode (pool : PoolAnswers) :
    (s.perform c (s.scanBackwardStage c pool r)).atCode =
      (s.capture c r).bind fun capture =>
        if (s.base.accumulateData c.toConfiguration pool
            (r.read (r.length - capture) capture.toNat)).1 = .collatorWouldBlock then none
        else some ⟨r.data, r.length - capture⟩ := by
  unfold perform scanBackwardStage PesVideo.capture
  cases accumulationToCaptureCode c.codes.ignored s.partitionByte
      s.base.nextPartition.partitionSize r with
  | none => rfl
  | some capture =>
    rw [Option.bind_some]
    dsimp only [Collator2Base.status]
    split
    · rfl
    · split <;> rfl

theorem scanBackwardStage_remaining (pool : PoolAnswers)
    (hcapture : ∀ capture ∈ s.capture c r, capture ≤ r.length ∧ 4 ≤ capture.toNat) :
    (s.perform c (s.scanBackwardStage c pool r)).remaining ≤ r.length.toNat - 4 := by
  unfold PesVideo.capture at hcapture
  unfold perform scanBackwardStage
  cases haccumulation : accumulationToCaptureCode c.codes.ignored s.partitionByte
      s.base.nextPartition.partitionSize r with
  | none => exact Nat.zero_le _
  | some capture =>
    obtain ⟨hle, hfour⟩ := hcapture capture haccumulation
    dsimp only
    split
    · exact Nat.zero_le _
    · have hrest : (r.length - capture).toNat ≤ r.length.toNat - 4 := by
        rw [BitVec.toNat_sub_of_le hle]
        omega
      exact hrest

theorem partitionByte_appendData {data : List Byte} {k : Nat}
    (hdirection : s.base.playDirection = .playBackward) (hdata : data.length = k) (hk : k ≤ 3) :
    { s with base := s.base.appendData data }.partitionByte 3 = s.partitionByte (3 - k) := by
  have hlt : BitVec.ofNat 32 k ≤ 3 := by
    rw [BitVec.le_def, BitVec.toNat_ofNat, Nat.mod_eq_of_lt (by omega)]
    exact hk
  have hnext : (s.base.appendData data).nextPartition.partitionBase =
      s.base.nextPartition.partitionBase - BitVec.ofNat 32 k := by
    unfold Collator2Base.appendData
    rw [Collator2Base.nextPartition_moveCurrentPartitionBoundary]
    dsimp only
    rw [hdirection, hdata]
    rfl
  have hmemory : (s.base.appendData data).memory =
      writeBytes s.base.memory (s.base.nextPartition.partitionBase - BitVec.ofNat 32 k) data := by
    unfold Collator2Base.appendData
    rw [hdirection, hdata]
    rfl
  unfold partitionByte bytesAt
  dsimp only
  rw [hnext, hmemory]
  unfold writeBytes
  have hoffset : s.base.nextPartition.partitionBase - BitVec.ofNat 32 k + BitVec.ofNat 32 3 -
      (s.base.nextPartition.partitionBase - BitVec.ofNat 32 k) = BitVec.ofNat 32 3 := by
    rw [BitVec.add_comm, BitVec.add_sub_cancel]
  have hplace : s.base.nextPartition.partitionBase - BitVec.ofNat 32 k + BitVec.ofNat 32 3 =
      s.base.nextPartition.partitionBase + BitVec.ofNat 32 (3 - k) := by
    have hsub : BitVec.ofNat 32 (3 - k) = BitVec.ofNat 32 3 - BitVec.ofNat 32 k :=
      (BitVec.ofNat_sub_ofNat_of_le 3 k (by omega) hk).symm
    rw [hsub, BitVec.sub_eq_add_neg, BitVec.sub_eq_add_neg]
    ac_rfl
  rw [hoffset, hplace, List.getD_eq_default _ _ (by rw [hdata]; exact hk)]

end PesVideo

namespace Session

variable {c : VideoConfiguration} {env : Environment} {m : Session}

theorem GoesOn.remaining_le {bound : Nat} (h : m.GoesOn bound) : m.remaining ≤ bound := by
  unfold remaining
  split
  · exact Nat.zero_le _
  · exact Nat.zero_le _
  · next r place _ hinput => exact (h r place hinput).2.2.2

theorem remaining_eq {r : Remaining} {place : Place} (hinput : m.input = some (r, place))
    (hplace : ∀ status, place ≠ .exit status) : m.remaining = r.length.toNat := by
  unfold remaining
  rw [hinput]
  split
  · next hnone => exact nomatch hnone
  · next status hexit =>
    obtain ⟨-, rfl⟩ := Prod.mk.inj (Option.some.inj hexit)
    exact absurd rfl (hplace status)
  · next heq =>
    obtain ⟨rfl, -⟩ := Prod.mk.inj (Option.some.inj heq)
    rfl

theorem InReverse.beside (h : m.InReverse) {s : PesVideo}
    (hdirection : s.base.playDirection = m.collator.base.playDirection)
    (hroom : s.base.codedFrameBufferFreeSpace = m.collator.base.codedFrameBufferFreeSpace ∨
      m.unlocked = true) : InReverse { m with collator := s } := by
  obtain ⟨bound, hgoes⟩ := h
  refine ⟨bound, fun r place hinput => ?_⟩
  obtain ⟨hreverse, hplace, hscan, hle⟩ := hgoes r place hinput
  refine ⟨hdirection.trans hreverse, hplace, fun hscanning => ?_, hle⟩
  rcases hroom with hsame | hunlocked
  · rw [hsame]
    exact hscan hscanning
  · -- the lock is held while the look for a code is to come
    have hinput' : m.input = some (r, place) := hinput
    unfold unlocked at hunlocked
    rw [hinput', hscanning] at hunlocked
    exact nomatch hunlocked

theorem frameFlush_direction (c : VideoConfiguration) (s : PesVideo)
    (accumulatePool outputPool : PoolAnswers) :
    (s.frameFlush c accumulatePool outputPool).base.playDirection = s.base.playDirection := by
  unfold PesVideo.frameFlush
  dsimp only
  rw [Collator2Base.frameFlush_eq]
  refine Collator2Base.foldl_direction _ _ _ fun op hop direction heq => ?_
  rw [heq] at hop
  simp at hop

theorem setDirection_cases (c : Configuration) (s : Collator2Base) (direction : PlayDirection) :
    (s.setDirection c direction).1 ≠ .collatorNoError ∨
      (s.setDirection c direction).2.playDirection = direction := by
  unfold Collator2Base.setDirection
  split
  · next hsame => exact .inr hsame
  · split
    · exact .inl fun h => nomatch h
    · exact .inr rfl

theorem step_input_under {E : Environment} {under : Remaining × Place} (hinput : m.input = some under)
    (direction : PlayDirection) (descriptor : InputDescriptor) (nonBlocking : Bool)
    (data : UnsignedInt → Byte) (length : UnsignedInt) :
    step c E m (.input direction descriptor nonBlocking data length) = m := by
  unfold step
  rw [hinput]

theorem input_inReverse (env : Environment) (h : m.InReverse) (descriptor : InputDescriptor) (nonBlocking : Bool)
    (data : UnsignedInt → Byte) (length : UnsignedInt) :
    (step c env m (.input .playBackward descriptor nonBlocking data length)).InReverse := by
  unfold step
  dsimp only
  cases hinput : m.input with
  | some under => exact h
  | none =>
    dsimp only
    refine ⟨length.toNat, fun r place hinput => ?_⟩
    dsimp only at hinput
    split at hinput
    · next hstatus =>
      obtain ⟨rfl, rfl⟩ := Prod.mk.inj (Option.some.inj hinput)
      have hdirection := (setDirection_cases c.toConfiguration m.collator.base .playBackward).resolve_left
        (not_not_intro hstatus)
      exact ⟨hdirection, rfl, (fun hscan => nomatch hscan), Nat.le_refl _⟩
    · exact nomatch hinput

end Session

end Duckbox.Collator2
