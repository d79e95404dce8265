import Duckbox.Collator.PesFrame

/-!
# What the frame collator reads

The bit reads of a header come to bytes: what has been loaded when they are done are the
aligned words that hold the bytes the flags announce (`Loaded`). So an access of a pass
lies in the block, and no length is negative, exactly where `PacketFits` says so of the
bytes of the packet (`packet_good_iff`).
-/

namespace Duckbox.Collator.PesFrame

open Duckbox.Lib
open Duckbox.FrameParser
open BitStream

variable {m : Nat → BitVec 8} {bits : BitStream} {start p n : Nat}

/-! ## Loading words -/

/-- A stream that was put on `start` is at `p`, and has loaded no word it did not need. -/
structure Loaded (m : Nat → BitVec 8) (start p : Nat) (bits : BitStream) : Prop where
  bitsAt : bits.At m p
  from_start : start ≤ p
  data : bits.bitsData = max (start / 32 + 1) ((p + 31) / 32)

theorem loaded_setPointer (m : Nat → BitVec 8) (pointer : Nat) :
    Loaded m (8 * pointer) (8 * pointer) (setPointer m pointer) where
  bitsAt := at_setPointer m pointer
  from_start := Nat.le_refl _
  data := by
    show pointer / 4 + 1 = _
    omega

theorem Loaded.get (h : Loaded m start p bits) (hn : n ≤ 32) :
    Loaded m start (p + n) (bits.get m n).2 := by
  have hat := h.bitsAt.get hn
  have hdata := h.data
  have hpos := h.bitsAt.data
  have hstart := h.from_start
  refine ⟨hat.2.1, Nat.le_add_right_of_le hstart, ?_⟩
  show ((bits.ensure m n).flush n).bitsData = _
  unfold ensure flush
  split
  · show bits.bitsData + 1 = _
    omega
  · show bits.bitsData = _
    omega

theorem bitsData_flushUnseen (n : Nat) : ∀ {p : Nat} {bits : BitStream}, bits.At m p →
    bits.bitsAvailable ≤ 32 → 0 < n →
      (bits.flushUnseen m n).bitsData = max bits.bitsData ((p + n + 31) / 32) := by
  induction n using Nat.strong_induction_on with
  | _ n ih =>
    intro p bits h hfull hpos
    have hdata := h.data
    unfold flushUnseen
    split
    · next hmany =>
      have hload : (bits.load m).At m (p + 32) := by
        refine ⟨?_, h.available, h.held_load (Nat.le_add_right _ _) (Nat.le_of_lt h.available)⟩
        show 32 * (bits.bitsData + 1) = p + 32 + bits.bitsAvailable
        omega
      rw [ih (n - 32) (by omega) hload hfull (by omega)]
      show max (bits.bitsData + 1) _ = _
      omega
    · next hfew =>
      unfold ensure flush
      split
      · show bits.bitsData + 1 = _
        omega
      · show bits.bitsData = _
        omega

theorem Loaded.flushUnseen (h : Loaded m start p bits) (hn : 0 < n) :
    Loaded m start (p + n) (bits.flushUnseen m n) := by
  have hdata := h.data
  have hpos := h.bitsAt.data
  have hstart := h.from_start
  refine ⟨h.bitsAt.flushUnseen.1, Nat.le_add_right_of_le hstart, ?_⟩
  rw [bitsData_flushUnseen n h.bitsAt (by omega) hn]
  omega

/-! ## The fields of a header -/

theorem Loaded.readTime (h : Loaded m start p bits) : Loaded m start (p + 40) (readTime m bits).2 :=
  ((((((h.flushUnseen (n := 4) (by decide)).get (n := 3) (by decide)).flushUnseen (n := 1)
    (by decide)).get (n := 15) (by decide)).flushUnseen (n := 1) (by decide)).get (n := 15)
    (by decide)).flushUnseen (n := 1) (by decide)

variable {q : Nat}

theorem Loaded.readPts (h : Loaded m start p bits) (flags : BitVec 8) (s : PesFrame) :
    Loaded m start (p + 8 * field flags 0x80 5) (readPts m flags s bits).2 := by
  unfold PesFrame.readPts field
  split
  · exact h.readTime
  · exact h

theorem Loaded.readDts (h : Loaded m start p bits) (flags : BitVec 8) (s : PesFrame) :
    Loaded m start (p + 8 * field flags 0xc0 5) (readDts m flags s bits).2 := by
  unfold PesFrame.readDts field
  split
  · exact h.readTime
  · exact h

theorem Loaded.passField (h : Loaded m start p bits) (flags mask : BitVec 8) (hn : 0 < n) :
    Loaded m start (p + 8 * field flags mask n) (passField m flags mask (8 * n) bits) := by
  unfold PesFrame.passField field
  split
  · exact h.flushUnseen (by omega)
  · exact h

theorem Loaded.readTimes (m : Nat → BitVec 8) (pesHeader : Nat) (s : PesFrame) :
    Loaded m (8 * (pesHeader + 9))
      (8 * (pesHeader + 9 + timeFields (m (pesHeader + 7))))
      (readTimes m pesHeader s).2 := by
  have hpts := (loaded_setPointer m (pesHeader + 9)).readPts (m (pesHeader + 7)) s
  have hdts := hpts.readDts (m (pesHeader + 7))
    (PesFrame.readPts m (m (pesHeader + 7)) s (setPointer m (pesHeader + 9))).1
  unfold timeFields
  rw [Nat.mul_add 8 (pesHeader + 9), Nat.mul_add 8 (field _ _ _), ← Nat.add_assoc]
  exact hdts

theorem Loaded.fields (h : Loaded m start (8 * q) bits) (flags : BitVec 8) :
    Loaded m start (8 * (q + middleFields flags))
      (PesFrame.passField m flags 0x02 16 (PesFrame.passField m flags 0x04 8
        (PesFrame.passField m flags 0x08 8 (PesFrame.passField m flags 0x10 24
          (PesFrame.passField m flags 0x20 48 bits))))) := by
  have hall := ((((h.passField flags 0x20 (n := 6) (by decide)).passField flags 0x10 (n := 3)
    (by decide)).passField flags 0x08 (n := 1) (by decide)).passField flags 0x04 (n := 1)
    (by decide)).passField flags 0x02 (n := 2) (by decide)
  unfold middleFields
  simp only [Nat.mul_add, ← Nat.add_assoc]
  exact hall

theorem Loaded.get_one (h : Loaded m start (8 * q) bits) :
    ((bits.get m 1).1 != 0) = (m q).msb := by
  have hvalue := (h.bitsAt.get (n := 1) (by decide)).1
  have hbit : byteBit m (8 * q) = (m q).msb := by
    unfold byteBit
    rw [Nat.mul_div_cancel_left _ (by decide), Nat.mul_mod_right, BitVec.msb_eq_getLsbD_last]
  have hnumeral : numeral (fun i => byteBit m (8 * q + i)) 1 = (m q).msb.toNat := by
    rw [← hbit]
    show 2 * 0 + (byteBit m (8 * q + 0)).toNat = _
    rw [Nat.mul_zero, Nat.zero_add, Nat.add_zero]
  rw [hnumeral] at hvalue
  cases hmsb : (m q).msb with
  | true =>
    rw [hmsb] at hvalue
    rw [bne_iff_ne]
    intro hzero
    rw [hzero] at hvalue
    cases hvalue
  | false =>
    rw [hmsb] at hvalue
    rw [bne_eq_false_iff_eq]
    exact BitVec.eq_of_toNat_eq hvalue

theorem Loaded.optional (h : Loaded m start (8 * q) bits) (flags : BitVec 8) (s : PesFrame) :
    Loaded m start
      (8 * (q + middleFields flags + extension m flags (q + middleFields flags)))
      (readPrivateData m (walkOptional m flags bits).1 s (walkOptional m flags bits).2).2 := by
  have hfields := h.fields flags
  unfold walkOptional extension
  simp only
  split
  · have hbit := hfields.get_one
    have hbyte := (hfields.get (n := 1) (by decide)).flushUnseen (n := 7) (by decide)
    simp only [hbit]
    unfold readPrivateData
    split
    · exact ((hbyte.get (n := 8) (by decide)).get (n := 8) (by decide)).get (n := 8) (by decide)
    · exact hbyte
  · exact hfields

/-! ## The accesses of a pass -/

variable {internalFrameFlush : PesFrame → Bool × PesFrame} {maximumCodedFrameSize : BitVec 32}
  {data dataLength pesHeader : Nat}

theorem Loaded.malformed (h : PesFrame.malformed (m (pesHeader + 7)) = true) (s : PesFrame) :
    Loaded m (8 * (pesHeader + 9)) (8 * (pesHeader + 9 + optionalBytes m pesHeader))
      (PesFrame.readTimes m pesHeader s).2 := by
  unfold optionalBytes
  dsimp only
  rw [if_pos h]
  exact Loaded.readTimes m pesHeader s

theorem Loaded.readHeader (h : ¬ PesFrame.malformed (m (pesHeader + 7)) = true) (s : PesFrame) :
    Loaded m (8 * (pesHeader + 9)) (8 * (pesHeader + 9 + optionalBytes m pesHeader))
      (PesFrame.readHeader m pesHeader s).2 := by
  have htimes := Loaded.readTimes m pesHeader s
  have hall := htimes.optional (m (pesHeader + 7)) (PesFrame.readTimes m pesHeader s).1
  unfold optionalBytes
  dsimp only
  rw [if_neg h, ← Nat.add_assoc, ← Nat.add_assoc]
  exact hall

theorem wordReads_good_iff (dataLength : Nat) {offset n : Nat}
    (h : Loaded m (8 * (data + offset + 9)) (8 * (data + offset + 9 + n)) bits) :
    (wordReads (data + offset + 9) bits).Good data dataLength ↔
      4 * ((data + offset + 9 + max 1 n + 3) / 4) ≤ data + dataLength := by
  have hdata := h.data
  unfold wordReads Event.Good
  omega

theorem payloadLength_msb_iff (m : Nat → BitVec 8) (pesHeader : Nat) :
    (payloadLength m pesHeader).msb = false ↔
      pesLength m pesHeader = 0 ∨ (m (pesHeader + 8)).toNat + 3 ≤ pesLength m pesHeader := by
  have h4 := (m (pesHeader + 4)).isLt
  have h5 := (m (pesHeader + 5)).isLt
  have h8 := (m (pesHeader + 8)).isLt
  have hlt : pesLength m pesHeader < 2 ^ 16 := by
    unfold pesLength
    omega
  unfold payloadLength
  split
  · next hne =>
    have hthree : (3 : BitVec 32).toNat = 3 := rfl
    rw [BitVec.msb_eq_false_iff_two_mul_lt, BitVec.toNat_sub, BitVec.toNat_sub, BitVec.toNat_ofNat,
      BitVec.toNat_setWidth, hthree]
    omega
  · next hzero =>
    refine iff_of_true rfl (.inl ?_)
    omega

theorem payload_end (h : pesLength m pesHeader = 0 ∨
    (m (pesHeader + 8)).toNat + 3 ≤ pesLength m pesHeader) :
    (BitVec.ofNat 32 (pesLength m pesHeader + 6) - payloadLength m pesHeader).toNat
      + (payloadLength m pesHeader).toNat = pesLength m pesHeader + 6 := by
  have h4 := (m (pesHeader + 4)).isLt
  have h5 := (m (pesHeader + 5)).isLt
  have hlt : pesLength m pesHeader < 2 ^ 16 := by
    unfold pesLength
    omega
  have hle : (payloadLength m pesHeader).toNat ≤ pesLength m pesHeader := by
    have h8 := (m (pesHeader + 8)).isLt
    unfold payloadLength
    split
    · have hthree : (3 : BitVec 32).toNat = 3 := rfl
      rw [BitVec.toNat_sub, BitVec.toNat_sub, BitVec.toNat_ofNat, BitVec.toNat_setWidth, hthree]
      omega
    · exact Nat.zero_le _
  rw [BitVec.toNat_sub, BitVec.toNat_ofNat]
  omega

theorem good_read_iff {start length : Nat} : (Event.read start length).Good data dataLength ↔
    length = 0 ∨ data ≤ start ∧ start + length ≤ data + dataLength :=
  Iff.rfl

theorem accumulatePayload_good_iff {offset next : Nat} {s : PesFrame}
    (h : pesLength m (data + offset) = 0 ∨
      (m (data + offset + 8)).toNat + 3 ≤ pesLength m (data + offset)) :
    (∀ e ∈ (accumulatePayload m internalFrameFlush maximumCodedFrameSize (data + offset) next s).2,
        e.Good data dataLength) ↔
      payloadLength m (data + offset) = 0 ∨
        s.overflows maximumCodedFrameSize (payloadLength m (data + offset)) = true ∨
        offset + pesLength m (data + offset) + 6 ≤ dataLength := by
  have hend := payload_end h
  unfold accumulatePayload
  simp only
  split
  · next hover => exact iff_of_true (fun e he => by cases he) (.inr (.inl hover))
  · next hroom =>
    have hlog : ∀ {q : Option Position} {copied : List Event} {c : Prop} [Decidable c]
        {q' : Option Position}, (if c then (q, copied) else (q', copied)).2 = copied := by
      intro q copied c _ q'
      split <;> rfl
    rw [hlog, List.forall_mem_singleton, good_read_iff]
    have hzero : (payloadLength m (data + offset)).toNat = 0 ↔ payloadLength m (data + offset) = 0 := by
      constructor
      · exact fun h => BitVec.eq_of_toNat_eq h
      · exact fun h => by rw [h]; rfl
    rw [hzero]
    constructor
    · rintro (hnone | ⟨-, hin⟩)
      · exact .inl hnone
      · exact .inr (.inr (by omega))
    · rintro (hnone | hover | hin)
      · exact .inl hnone
      · exact absurd hover hroom
      · exact .inr ⟨by omega, by omega⟩

theorem headerReads_good_iff {offset : Nat} (hwords : data + offset + 10 ≤ data + dataLength) :
    (∀ e ∈ headerReads m (data + offset), e.Good data dataLength) ↔
      pesLength m (data + offset) = 0 ∨
        (m (data + offset + 8)).toNat + 3 ≤ pesLength m (data + offset) := by
  rw [← payloadLength_msb_iff]
  have hread : ∀ k, k ≤ 8 → (Event.read (data + offset + k) 1).Good data dataLength := by
    intro k hk
    exact .inr ⟨by omega, by omega⟩
  unfold headerReads
  constructor
  · intro hall
    have hlength := (List.forall_mem_append.mp hall).2
    exact hlength _ List.mem_cons_self
  · intro hlength e he
    simp only [List.mem_append, List.mem_cons, List.not_mem_nil, or_false] at he
    rcases he with ((rfl | rfl) | he) | rfl | rfl
    · exact hread 4 (by omega)
    · exact hread 5 (by omega)
    · split at he
      · obtain rfl := List.mem_singleton.mp he
        exact hread 8 (by omega)
      · cases he
    · exact hlength
    · exact hread 7 (by omega)

theorem packet_good_iff {p : Position} :
    (∀ e ∈ (packet m internalFrameFlush maximumCodedFrameSize data dataLength p).2,
        e.Good data dataLength) ↔
      PacketFits m maximumCodedFrameSize data dataLength p := by
  unfold packet PacketFits
  by_cases hoffset : p.offset < dataLength
  · rw [if_pos hoffset]
    simp only [forall_const, hoffset]
    -- the word of the byte behind `PesHeader[8]` is loaded in every case
    have hten : ∀ n, 4 * ((data + p.offset + 9 + max 1 n + 3) / 4) ≤ data + dataLength →
        data + p.offset + 10 ≤ data + dataLength := by
      intro n hn
      omega
    by_cases hmalformed : malformed (m (data + p.offset + 7)) = true
    · rw [if_pos hmalformed]
      have hwords := wordReads_good_iff dataLength
        (Loaded.malformed hmalformed p.collator)
      rw [List.forall_mem_append, List.forall_mem_singleton, hwords]
      constructor
      · rintro ⟨hheader, hin⟩
        exact ⟨hin, (headerReads_good_iff (hten _ hin)).mp hheader, .inl hmalformed⟩
      · rintro ⟨hin, hlength, -⟩
        exact ⟨(headerReads_good_iff (hten _ hin)).mpr hlength, hin⟩
    · rw [if_neg hmalformed]
      have hwords := wordReads_good_iff dataLength
        (Loaded.readHeader hmalformed p.collator)
      simp only [List.forall_mem_append, List.forall_mem_cons]
      rw [hwords]
      constructor
      · rintro ⟨hheader, hin, hcopied⟩
        have hlength := (headerReads_good_iff (hten _ hin)).mp hheader
        exact ⟨hin, hlength, .inr ((accumulatePayload_good_iff hlength).mp hcopied)⟩
      · rintro ⟨hin, hlength, hpayload⟩
        refine ⟨(headerReads_good_iff (hten _ hin)).mpr hlength, hin, ?_⟩
        refine (accumulatePayload_good_iff hlength).mpr ?_
        rcases hpayload with hbad | hpayload
        · exact absurd hbad hmalformed
        · exact hpayload
  · rw [if_neg hoffset]
    exact iff_of_true (fun e he => by cases he) (fun h => absurd h hoffset)

/-! ## The whole block -/

theorem accumulatePayload_next {offset : Nat} {s : PesFrame} {t : Position}
    (h : (accumulatePayload m internalFrameFlush maximumCodedFrameSize pesHeader offset s).1 = some t) :
    t.offset = offset ∧
      ¬ s.overflows maximumCodedFrameSize (payloadLength m pesHeader) = true := by
  unfold accumulatePayload at h
  simp only at h
  split at h
  · cases h
  · next hroom =>
    refine ⟨?_, hroom⟩
    split at h
    · dsimp only at h
      split at h
      · obtain rfl := Option.some.inj h
        rfl
      · cases h
    · obtain rfl := Option.some.inj h
      rfl

theorem packet_next {p t : Position}
    (h : (packet m internalFrameFlush maximumCodedFrameSize data dataLength p).1 = some t) :
    p.offset < dataLength ∧
      t.offset = (p.offset + (pesLength m (data + p.offset) + 6)) % 2 ^ 32 ∧
      ¬ malformed (m (data + p.offset + 7)) = true ∧
      ¬ (readHeader m (data + p.offset) p.collator).1.overflows maximumCodedFrameSize
        (payloadLength m (data + p.offset)) = true := by
  unfold packet at h
  split at h
  · next hoffset =>
    simp only at h
    split at h
    · cases h
    · next hgood =>
      obtain ⟨hnext, hroom⟩ := accumulatePayload_next h
      exact ⟨hoffset, hnext, hgood, hroom⟩
  · cases h

theorem packet_closer (hfirst : 256 ≤ data) (hlast : data + dataLength ≤ 2 ^ 32) {p t : Position}
    (hfits : PacketFits m maximumCodedFrameSize data dataLength p)
    (h : (packet m internalFrameFlush maximumCodedFrameSize data dataLength p).1 = some t) :
    dataLength - t.offset < dataLength - p.offset := by
  obtain ⟨hoffset, hnext, hgood, hroom⟩ := packet_next h
  obtain ⟨hwords, hlength, hpayload⟩ := hfits hoffset
  have h8 := (m (data + p.offset + 8)).isLt
  have hend := payload_end hlength
  rcases hpayload with hbad | hnone | hover | hin
  · exact absurd hbad hgood
  · -- an empty payload: the packet is no longer than its header
    have hshort : pesLength m (data + p.offset) ≤ 258 := by
      by_cases hzero : pesLength m (data + p.offset) = 0
      · omega
      · have hthree : (3 : BitVec 32).toNat = 3 := rfl
        have hvalue := congrArg BitVec.toNat hnone
        unfold payloadLength at hvalue
        rw [if_pos hzero, BitVec.toNat_sub, BitVec.toNat_sub, BitVec.toNat_ofNat,
          BitVec.toNat_setWidth, hthree] at hvalue
        have hvalue : _ = 0 := hvalue
        have h4 := (m (data + p.offset + 4)).isLt
        have h5 := (m (data + p.offset + 5)).isLt
        have hlt : pesLength m (data + p.offset) < 2 ^ 16 := by
          unfold pesLength
          omega
        omega
    omega
  · exact absurd hover hroom
  · omega

/-- `Input` ends, and of all it reads and accumulates nothing lies outside the block and
no length is negative, exactly where every packet it comes to fits. -/
theorem input_bounded_iff (m : Nat → BitVec 8) (internalFrameFlush : PesFrame → Bool × PesFrame)
    (maximumCodedFrameSize : BitVec 32) {data dataLength : Nat} (hfirst : 256 ≤ data)
    (hlast : data + dataLength ≤ 2 ^ 32) (s : PesFrame) :
    (∃ fuel log, input m internalFrameFlush maximumCodedFrameSize data dataLength fuel s = some log ∧
        ∀ e ∈ log, e.Good data dataLength) ↔
      ∀ n, OkFor (packet m internalFrameFlush maximumCodedFrameSize data dataLength)
        (PacketFits m maximumCodedFrameSize data dataLength) n ⟨0, s⟩ :=
  watch_iff (P := fun _ => True) (d := fun p => dataLength - p.offset)
    (fun _ => packet_good_iff) (fun _ _ _ => trivial)
    (fun _ hfits h => packet_closer hfirst hlast hfits h) trivial

/-- A packet of so many bytes behind its length, with no optional fields. -/
def packetOf (pesLength : BitVec 8) (address : Nat) : BitVec 8 :=
  [0, 0, 1, 0xbd, 0, pesLength, 0x80, 0, 0].getD (address - 0x1000) 0

/-- A flush that succeeds and leaves an empty buffer. -/
def flushed (s : PesFrame) : Bool × PesFrame := (true, { s with accumulatedDataSize := 0 })

/-- The collator with a buffer and nothing in it. -/
def emptyCollator : PesFrame := ⟨false, 0, false, 0, 0, 0, 0, 0, true⟩

/-- Four bytes of payload. -/
theorem input_bounded_packet :
    ∃ fuel log, input (packetOf 7) flushed 0x1000 0x1000 13 fuel emptyCollator = some log ∧
      ∀ e ∈ log, e.Good 0x1000 13 := by
  refine (input_bounded_iff (packetOf 7) flushed 0x1000 (by decide) (by decide) emptyCollator).mpr
    (fun n => ?_)
  cases n with
  | zero => trivial
  | succ n =>
    refine ⟨fun _ => ⟨by decide, .inr (by decide), .inr (.inr (.inr (by decide)))⟩, fun t ht => ?_⟩
    obtain ⟨-, hoffset, -⟩ := packet_next ht
    have hend : t.offset = 13 := hoffset.trans (by decide)
    cases n with
    | zero => trivial
    | succ n =>
      refine ⟨fun hlt => absurd hlt (by rw [hend]; decide), fun u hu => ?_⟩
      obtain ⟨hlt, -⟩ := packet_next hu
      exact absurd hlt (by rw [hend]; decide)

/-- A packet length that leaves no room for the header makes the payload length -1. -/
theorem input_negative_length :
    ¬ ∀ (m : Nat → BitVec 8) (internalFrameFlush : PesFrame → Bool × PesFrame)
      (maximumCodedFrameSize : BitVec 32) (data dataLength : Nat) (s : PesFrame),
      256 ≤ data → data + dataLength ≤ 2 ^ 32 →
        ∃ fuel log,
          input m internalFrameFlush maximumCodedFrameSize data dataLength fuel s = some log ∧
            ∀ e ∈ log, e.Good data dataLength := by
  intro h
  obtain ⟨fuel, log, hlog, hgood⟩ :=
    h (packetOf 2) flushed 0x1000 0x1000 16 emptyCollator (by decide) (by decide)
  have hok := okFor_of_watch (P := fun _ => True) (fun _ => packet_good_iff) (fun _ _ _ => trivial) 1
    trivial hlog hgood
  obtain ⟨-, hlength, -⟩ := hok.1 (by decide)
  exact absurd hlength (by decide)

end Duckbox.Collator.PesFrame
