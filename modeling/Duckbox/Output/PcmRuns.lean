import Duckbox.Output.Pcm
import Duckbox.Pes.Header

/-!
# What the LPCM writer keeps of its input

A call that is shorter than a packet, made while the break buffer holds something,
overwrites what it holds (`loop_short`); every other call adds its data to what has
been injected and is held (`loop_holds`). Bytes lost stay lost (`loop_size`), so the
writer keeps its input exactly if no such call is made (`keepsSamples_iff`), the
stream parameters give a packet length, and the samples have 16 bits: of any other
size a byte in twelve is not written and another twice.
-/

namespace Duckbox.Output

open Duckbox.Lib

/-! ## The order of the bytes -/

section

variable {p : PcmPrivateData} {a b : List Byte} {x : List (Option Byte)}

theorem swapBytes_length (h : swapBytes a = some x) : x.length = a.length := by
  induction a using swapBytes.induct generalizing x with
  | case1 =>
    obtain rfl := Option.some.inj h
    rfl
  | case2 c d rest ih =>
    obtain ⟨y, hy, rfl⟩ := Option.map_eq_some_iff.mp h
    simp [ih hy]
  | case3 c => exact absurd h (by simp [swapBytes])

theorem swapBytes_append (h : swapBytes a = some x) :
    swapBytes (a ++ b) = (swapBytes b).map (x ++ ·) := by
  induction a using swapBytes.induct generalizing x with
  | case1 =>
    obtain rfl := Option.some.inj h
    cases hb : swapBytes b <;> simp [hb]
  | case2 c d rest ih =>
    obtain ⟨y, hy, rfl⟩ := Option.map_eq_some_iff.mp h
    show (swapBytes (rest ++ b)).map _ = _
    rw [ih hy, Option.map_map]
    rfl
  | case3 c => exact absurd h (by simp [swapBytes])

theorem swapBytes_swapped (h : swapBytes a = some x) : x = (swapped a).map some := by
  induction a using swapBytes.induct generalizing x with
  | case1 =>
    obtain rfl := Option.some.inj h
    rfl
  | case2 c d rest ih =>
    obtain ⟨y, hy, rfl⟩ := Option.map_eq_some_iff.mp h
    rw [ih hy]
    rfl
  | case3 c => exact absurd h (by simp [swapBytes])

theorem swapBytes_even (h : 2 ∣ a.length) : (swapBytes a).isSome = true := by
  induction a using swapBytes.induct with
  | case1 => rfl
  | case2 c d rest ih =>
    have hrest : 2 ∣ rest.length := by
      simp only [List.length_cons] at h
      omega
    show ((swapBytes rest).map _).isSome = true
    rw [Option.isSome_map]
    exact ih hrest
  | case3 c => simp at h

theorem regroupBytes_length (h : regroupBytes a = some x) : x.length = a.length := by
  induction a using regroupBytes.induct generalizing x with
  | case1 =>
    obtain rfl := Option.some.inj h
    rfl
  | case2 b0 b1 b2 b3 b4 b5 b6 b7 b8 b9 b10 b11 rest ih =>
    obtain ⟨y, hy, rfl⟩ := Option.map_eq_some_iff.mp h
    simp [ih hy]
  | case3 a hne hnot =>
    rw [regroupBytes.eq_3 a hne hnot] at h
    exact absurd h (by simp)

theorem regroupBytes_append (h : regroupBytes a = some x) :
    regroupBytes (a ++ b) = (regroupBytes b).map (x ++ ·) := by
  induction a using regroupBytes.induct generalizing x with
  | case1 =>
    obtain rfl := Option.some.inj h
    cases hb : regroupBytes b <;> simp [hb]
  | case2 b0 b1 b2 b3 b4 b5 b6 b7 b8 b9 b10 b11 rest ih =>
    obtain ⟨y, hy, rfl⟩ := Option.map_eq_some_iff.mp h
    show (regroupBytes (rest ++ b)).map _ = _
    rw [ih hy, Option.map_map]
    rfl
  | case3 a hne hnot =>
    rw [regroupBytes.eq_3 a hne hnot] at h
    exact absurd h (by simp)

theorem regroupBytes_none (hne : a ≠ []) (h : regroupBytes a = some x) : none ∈ x := by
  induction a using regroupBytes.induct generalizing x with
  | case1 => exact absurd rfl hne
  | case2 b0 b1 b2 b3 b4 b5 b6 b7 b8 b9 b10 b11 rest ih =>
    obtain ⟨y, hy, rfl⟩ := Option.map_eq_some_iff.mp h
    exact List.mem_append_left _ (by simp)
  | case3 a hne hnot =>
    rw [regroupBytes.eq_3 a hne hnot] at h
    exact absurd h (by simp)

theorem reorder_length (h : reorder p a = some x) : x.length = a.length := by
  unfold reorder at h
  split at h
  · exact swapBytes_length h
  · exact regroupBytes_length h

theorem reorder_append {y : List (Option Byte)} (ha : reorder p a = some x)
    (hb : reorder p b = some y) : reorder p (a ++ b) = some (x ++ y) := by
  unfold reorder at ha hb ⊢
  split at ha
  · rw [if_pos (by assumption)] at hb ⊢
    rw [swapBytes_append ha, hb]
    rfl
  · rw [if_neg (by assumption)] at hb ⊢
    rw [regroupBytes_append ha, hb]
    rfl

theorem reorder_eq_sampleOrder_iff (h : reorder p a = some x) :
    x = (sampleOrder p a).map some ↔ p.uBitsPerSample = 16 ∨ a = [] := by
  unfold reorder at h
  unfold sampleOrder
  split at h
  · next h16 =>
    rw [if_pos h16]
    exact iff_of_true (swapBytes_swapped h) (.inl h16)
  · next h16 =>
    rw [if_neg h16]
    constructor
    · intro hx
      refine .inr (by_contra fun hne => ?_)
      have hnone := regroupBytes_none hne h
      rw [hx] at hnone
      exact absurd hnone (by simp)
    · intro hor
      obtain rfl := hor.resolve_left h16
      obtain rfl := Option.some.inj h
      rfl

end

/-! ## The length of a packet -/

theorem two_dvd_subFrameLen (p : PcmPrivateData) : 2 ∣ p.subFrameLen := by
  have hrate : 2 ∣ p.rate.2 := by
    unfold PcmPrivateData.rate
    split
    · exact ⟨20, rfl⟩
    split
    · exact ⟨40, rfl⟩
    split
    · exact ⟨80, rfl⟩
    split
    · exact ⟨20, rfl⟩
    split
    · exact ⟨40, rfl⟩
    split
    · exact ⟨80, rfl⟩
    · exact ⟨0, rfl⟩
  have hword : (2 : Nat) ∣ 2 ^ 32 := ⟨2 ^ 31, by decide⟩
  have hframe : 2 ∣ p.subFrame := by
    unfold PcmPrivateData.subFrame
    rw [BitVec.toNat_mul, BitVec.toNat_mul, BitVec.toNat_ofNat]
    refine (Nat.dvd_mod_iff hword).mpr (Nat.dvd_mul_right_of_dvd ?_ _)
    refine (Nat.dvd_mod_iff hword).mpr (Nat.dvd_mul_right_of_dvd ?_ _)
    exact (Nat.dvd_mod_iff hword).mpr hrate
  exact Nat.dvd_mul_right_of_dvd hframe _

theorem subFrameLen_le (p : PcmPrivateData) : p.subFrameLen ≤ 2016 := by
  unfold PcmPrivateData.subFrameLen PcmPrivateData.subFramesPerPES
  rw [Nat.mul_comm]
  exact Nat.div_mul_le_self 2016 p.subFrame

theorem subFrameLen_pos_iff (p : PcmPrivateData) :
    0 < p.subFrameLen ↔ 0 < p.subFrame ∧ p.subFrame ≤ 2016 := by
  have hframes : 0 < p.subFramesPerPES ↔ 0 < p.subFrame ∧ p.subFrame ≤ 2016 := Nat.div_pos_iff
  unfold PcmPrivateData.subFrameLen
  rw [Nat.pos_iff_ne_zero, Nat.mul_ne_zero_iff, ← Nat.pos_iff_ne_zero, ← Nat.pos_iff_ne_zero,
    hframes]
  exact and_iff_right_of_imp And.left

namespace PcmWriter

variable {p : PcmPrivateData} {w : PcmWriter} {d bs : List Byte}

/-! ## The loop of a call -/

/-- A writer that `prepareClipPlay` has been through. -/
structure Prepared (p : PcmPrivateData) (w : PcmWriter) : Prop where
  begun : w.initialHeader = false
  frame : w.subFrameLen = p.subFrameLen
  held : w.breakBuffer.length < p.subFrameLen

/-- What has been injected and is held is all of `d`. -/
structure Holds (p : PcmPrivateData) (d : List Byte) (w : PcmWriter) : Prop extends
    Prepared p w where
  all : ∃ front, d = front ++ w.breakBuffer ∧ reorder p front = some w.payload ∧
    p.subFrameLen ∣ front.length

/-- The bytes injected and held. -/
def size (w : PcmWriter) : Nat := w.payload.length + w.breakBuffer.length

@[simp] theorem payload_inject (payload : List (Option Byte)) :
    (w.inject payload).payload = w.payload ++ payload := by
  simp [PcmWriter.payload, inject]

@[simp] theorem breakBuffer_inject (payload : List (Option Byte)) :
    (w.inject payload).breakBuffer = [] := rfl

theorem Prepared.inject (h : Prepared p w) (payload : List (Option Byte)) :
    Prepared p (w.inject payload) :=
  ⟨h.begun, h.frame, Nat.zero_lt_of_lt h.held⟩

theorem pass_short (h : Prepared p w) (hlen : bs.length < p.subFrameLen) :
    pass p w bs = .again { w with breakBuffer := bs } [] := by
  unfold pass
  rw [h.frame, if_pos hlen]

theorem pass_packet (h : Prepared p w) (hlen : p.subFrameLen ≤ bs.length) :
    ∃ block rest, w.breakBuffer ++ bs = block ++ rest ∧ block.length = p.subFrameLen ∧
      rest.length < bs.length ∧ pass p w bs =
        match reorder p block with
        | some payload => .again (w.inject payload) rest
        | none => .stop () := by
  have hheld := h.held
  unfold pass
  rw [h.frame, if_neg (Nat.not_lt.mpr hlen)]
  by_cases hfill : 0 < w.breakBuffer.length
  · refine ⟨w.breakBuffer ++ bs.take (p.subFrameLen - w.breakBuffer.length),
      bs.drop (p.subFrameLen - w.breakBuffer.length), ?_, ?_, ?_, ?_⟩
    · rw [List.append_assoc, List.take_append_drop]
    · rw [List.length_append, List.length_take]
      omega
    · rw [List.length_drop]
      omega
    · exact (if_pos hfill).symm ▸ rfl
  · have hnil : w.breakBuffer = [] := List.eq_nil_of_length_eq_zero (by omega)
    refine ⟨bs.take p.subFrameLen, bs.drop p.subFrameLen, ?_, ?_, ?_, ?_⟩
    · rw [hnil, List.nil_append, List.take_append_drop]
    · rw [List.length_take]
      omega
    · rw [List.length_drop]
      omega
    · exact (if_neg hfill).symm ▸ rfl

theorem reorder_packet {block : List Byte} (hblock : block.length = p.subFrameLen)
    (hnone : reorder p block = none) : p.uBitsPerSample ≠ 16 := by
  intro h16
  have hsome : (swapBytes block).isSome = true :=
    swapBytes_even (hblock ▸ two_dvd_subFrameLen p)
  rw [reorder, if_pos h16] at hnone
  rw [hnone] at hsome
  exact absurd hsome (by simp)

theorem loop_holds (h : Holds p d w) (hok : w.breakBuffer = [] ∨ p.subFrameLen ≤ bs.length) :
    (∃ t, loopWithin (pass p) bs.length w bs = some (.ok t) ∧ Holds p (d ++ bs) t) ∨
      (∃ e, loopWithin (pass p) bs.length w bs = some (.error e)) ∧
        p.uBitsPerSample ≠ 16 ∧ p.subFrameLen ≤ bs.length := by
  -- the invariant, of what is taken and what remains of all the data
  let P : PcmWriter → List Byte → Prop := fun s rest =>
    rest.length ≤ bs.length ∧ (∃ taken, d ++ bs = taken ++ rest ∧ Holds p taken s) ∧
      (rest = [] ∨ s.breakBuffer = [] ∨ p.subFrameLen ≤ rest.length)
  have hP : P w bs := ⟨Nat.le_refl _, ⟨d, rfl, h⟩, .inr hok⟩
  have hloop := @loopWithin_inv _ _ _ (pass p) P
    (p.uBitsPerSample ≠ 16 ∧ p.subFrameLen ≤ bs.length) ?_ _ _ _ (Nat.le_refl _) hP
  · rcases hloop with ⟨t, ht, -, ⟨taken, htaken, hholds⟩, -⟩ | hstop
    · rw [List.append_nil] at htaken
      exact .inl ⟨t, ht, htaken ▸ hholds⟩
    · exact .inr hstop
  · intro s rest hne ⟨hle, ⟨taken, htaken, hholds⟩, hcase⟩
    obtain ⟨front, hfront, hpayload, hwhole⟩ := hholds.all
    by_cases hlen : rest.length < p.subFrameLen
    · -- the break buffer was empty, so nothing is overwritten
      have hnil : s.breakBuffer = [] := by
        rcases hcase with hcase | hcase | hcase
        · exact absurd hcase hne
        · exact hcase
        · omega
      rw [hnil, List.append_nil] at hfront
      refine .inl ⟨_, [], pass_short hholds.toPrepared hlen,
        List.length_pos_iff.mpr hne, Nat.zero_le _, ⟨d ++ bs, (List.append_nil _).symm, ?_⟩,
        .inl rfl⟩
      refine ⟨⟨hholds.begun, hholds.frame, hlen⟩, front, ?_, hpayload, hwhole⟩
      rw [htaken, hfront]
    · obtain ⟨block, rest', hblock, hsize, hshort, hpass⟩ :=
        pass_packet hholds.toPrepared (Nat.not_lt.mp hlen)
      cases hreorder : reorder p block with
      | none =>
        rw [hreorder] at hpass
        exact .inr ⟨⟨_, hpass⟩, reorder_packet hsize hreorder, by omega⟩
      | some payload =>
        rw [hreorder] at hpass
        refine .inl ⟨_, rest', hpass, hshort, by omega, ⟨front ++ block, ?_, ?_⟩, .inr (.inl rfl)⟩
        · rw [htaken, hfront, List.append_assoc, hblock, List.append_assoc]
        · refine ⟨hholds.toPrepared.inject payload, front ++ block, ?_, ?_, ?_⟩
          · rw [breakBuffer_inject, List.append_nil]
          · rw [payload_inject]
            exact reorder_append hpayload hreorder
          · rw [List.length_append, hsize]
            exact Nat.dvd_add hwhole (Nat.dvd_refl _)

theorem loop_size (h : Prepared p w) :
    (∃ t, loopWithin (pass p) bs.length w bs = some (.ok t) ∧ Prepared p t ∧
        t.size ≤ w.size + bs.length) ∨
      (∃ e, loopWithin (pass p) bs.length w bs = some (.error e)) ∧
        p.uBitsPerSample ≠ 16 ∧ p.subFrameLen ≤ bs.length := by
  let P : PcmWriter → List Byte → Prop := fun s rest =>
    Prepared p s ∧ rest.length ≤ bs.length ∧ s.size + rest.length ≤ w.size + bs.length
  have hP : P w bs := ⟨h, Nat.le_refl _, Nat.le_refl _⟩
  have hloop := @loopWithin_inv _ _ _ (pass p) P
    (p.uBitsPerSample ≠ 16 ∧ p.subFrameLen ≤ bs.length) ?_ _ _ _ (Nat.le_refl _) hP
  · rcases hloop with ⟨t, ht, hprepared, -, hsize⟩ | hstop
    · exact .inl ⟨t, ht, hprepared, hsize⟩
    · exact .inr hstop
  · intro s rest hne ⟨hprepared, hle, hsize⟩
    by_cases hlen : rest.length < p.subFrameLen
    · refine .inl ⟨_, [], pass_short hprepared hlen, List.length_pos_iff.mpr hne,
        ⟨hprepared.begun, hprepared.frame, hlen⟩, Nat.zero_le _, ?_⟩
      show s.payload.length + rest.length + 0 ≤ _
      unfold size at hsize ⊢
      omega
    · obtain ⟨block, rest', hblock, hlength, hshort, hpass⟩ :=
        pass_packet hprepared (Nat.not_lt.mp hlen)
      cases hreorder : reorder p block with
      | none =>
        rw [hreorder] at hpass
        exact .inr ⟨⟨_, hpass⟩, reorder_packet hlength hreorder, by omega⟩
      | some payload =>
        rw [hreorder] at hpass
        refine .inl ⟨_, rest', hpass, hshort, hprepared.inject payload, by omega, ?_⟩
        have hcount := congrArg List.length hblock
        rw [List.length_append, List.length_append, ← reorder_length hreorder] at hcount
        unfold size at hsize ⊢
        rw [payload_inject, breakBuffer_inject, List.length_append, List.length_nil]
        omega

theorem loop_short (h : Prepared p w) (hne : bs ≠ []) (hlen : bs.length < p.subFrameLen) :
    loopWithin (pass p) bs.length w bs = some (.ok { w with breakBuffer := bs }) := by
  obtain ⟨n, hn⟩ := Nat.exists_eq_succ_of_ne_zero (Nat.ne_of_gt (List.length_pos_iff.mpr hne))
  rw [hn, Nat.succ_eq_add_one, loopWithin_again hne (pass_short h hlen)]
  cases n <;> rfl

theorem loop_endless {fuel : Nat} (hframe : w.subFrameLen = 0) (hheld : w.breakBuffer = [])
    (hne : bs ≠ []) : loopWithin (pass p) fuel w bs = none := by
  induction fuel generalizing w with
  | zero =>
    cases bs with
    | nil => exact absurd rfl hne
    | cons b rest => rfl
  | succ fuel ih =>
    have hnil : reorder p [] = some [] := by
      unfold reorder
      split <;> rfl
    have hpass : pass p w bs = .again (w.inject []) bs := by
      unfold pass
      rw [hframe, hheld]
      simp [hnil]
    rw [loopWithin_again hne hpass]
    exact ih hframe rfl

/-! ## A call -/

/-- The writer that a call's loop begins with. -/
def ready (p : PcmPrivateData) (w : PcmWriter) : Option PcmWriter :=
  if w.initialHeader then prepareClipPlay { w with initialHeader := false } p else some w

variable {call : WriterAVCallData}

theorem writeData_refused (h : call.input = []) : writeData p w call = some (0, w) := by
  unfold WriterAVCallData.input at h
  unfold writeData
  cases hdata : call.data with
  | none => rfl
  | some buffer =>
    rw [hdata] at h
    by_cases hfd : call.fd < 0
    · simp [hfd]
    · rw [if_neg hfd] at h
      have hnil : buffer = [] := h
      simp [hnil]

theorem writeData_loop (h : call.input ≠ []) :
    writeData p w call =
      (ready p w).bind fun w =>
        match loopWithin (pass p) call.input.length w call.input with
        | some (.ok w) => some (call.input.length, w)
        | some (.error _) => none
        | none => none := by
  unfold WriterAVCallData.input at h ⊢
  unfold writeData
  by_cases hfd : call.fd < 0
  · rw [if_pos hfd] at h
    exact absurd rfl h
  · rw [if_neg hfd] at h ⊢
    cases hdata : call.data with
    | none =>
      rw [hdata] at h
      exact absurd rfl h
    | some buffer =>
      rw [hdata] at h
      have hne : buffer ≠ [] := h
      have hlen : buffer.length ≠ 0 := (Nat.ne_of_gt (List.length_pos_iff.mpr hne))
      dsimp only
      rw [if_neg hlen, if_neg hfd]
      unfold ready
      generalize (if w.initialHeader = true then _ else some w) = r
      cases r <;> rfl

theorem step_holds {u : PcmWriter} (hinput : call.input ≠ []) (hready : ready p w = some u)
    (h : Holds p d u) (hok : u.breakBuffer = [] ∨ p.subFrameLen ≤ call.input.length) :
    (∃ t, (writeData p w call).map Prod.snd = some t ∧ Holds p (d ++ call.input) t) ∨
      (writeData p w call).map Prod.snd = none ∧ p.uBitsPerSample ≠ 16 ∧
        p.subFrameLen ≤ call.input.length := by
  rw [writeData_loop hinput, hready]
  rcases loop_holds h hok with ⟨t, ht, hholds⟩ | ⟨⟨e, he⟩, h16, hlen⟩
  · refine .inl ⟨t, ?_, hholds⟩
    simp only [Option.bind_some, ht, Option.map_some]
  · refine .inr ⟨?_, h16, hlen⟩
    simp only [Option.bind_some, he, Option.map_none]

theorem step_size (hinput : call.input ≠ []) (h : Prepared p w) :
    (∃ t, (writeData p w call).map Prod.snd = some t ∧ Prepared p t ∧
        t.size ≤ w.size + call.input.length) ∨
      (writeData p w call).map Prod.snd = none ∧ p.uBitsPerSample ≠ 16 ∧
        p.subFrameLen ≤ call.input.length := by
  have hready : ready p w = some w := by rw [ready, h.begun]; rfl
  rw [writeData_loop hinput, hready]
  rcases loop_size h with ⟨t, ht, hprepared, hsize⟩ | ⟨⟨e, he⟩, h16, hlen⟩
  · refine .inl ⟨t, ?_, hprepared, hsize⟩
    simp only [Option.bind_some, ht, Option.map_some]
  · refine .inr ⟨?_, h16, hlen⟩
    simp only [Option.bind_some, he, Option.map_none]

/-! ## Runs -/

@[simp] theorem inputOf_append (cs cs' : List WriterAVCallData) :
    inputOf (cs ++ cs') = inputOf cs ++ inputOf cs' := List.flatMap_append

@[simp] theorem inputOf_singleton (c : WriterAVCallData) : inputOf [c] = c.input := by
  simp [inputOf]

/-- A call shorter than a packet comes when a whole number of packets has. -/
def Aligned (p : PcmPrivateData) (cs : List WriterAVCallData) : Prop :=
  ∀ pre call, pre ++ [call] <+: cs →
    call.input = [] ∨ p.subFrameLen ≤ call.input.length ∨ p.subFrameLen ∣ (inputOf pre).length

theorem aligned_concat (cs : List WriterAVCallData) (c : WriterAVCallData) :
    Aligned p (cs ++ [c]) ↔ Aligned p cs ∧
      (c.input = [] ∨ p.subFrameLen ≤ c.input.length ∨ p.subFrameLen ∣ (inputOf cs).length) := by
  constructor
  · intro h
    refine ⟨fun pre call hpre => h pre call ?_, h cs c List.prefix_rfl⟩
    exact hpre.trans (List.prefix_append cs [c])
  · intro ⟨h, hlast⟩ pre call hpre
    rcases List.prefix_concat_iff.mp hpre with heq | hpre
    · obtain ⟨rfl, hcall⟩ := List.append_inj' heq rfl
      obtain rfl := (List.cons.inj hcall).1
      exact hlast
    · exact h pre call hpre

theorem aligned_of_inputOf_nil {cs : List WriterAVCallData} (h : inputOf cs = []) :
    Aligned p cs := by
  intro pre call hpre
  obtain ⟨post, hpost⟩ := hpre
  rw [← hpost, inputOf_append, inputOf_append, inputOf_singleton] at h
  simp only [List.append_eq_nil_iff] at h
  exact .inl h.1.2

/-- What a run comes to. -/
inductive Outcome (p : PcmPrivateData) (cs : List WriterAVCallData) : Prop where
  | stuck (hrun : calls p cs = none) (h16 : p.uBitsPerSample ≠ 16)
      (hlen : p.subFrameLen ≤ (inputOf cs).length)
  | fresh (hrun : calls p cs = some start) (hinput : inputOf cs = [])
  | holds (w : PcmWriter) (hrun : calls p cs = some w) (haligned : Aligned p cs)
      (h : Holds p (inputOf cs) w)
  | loses (w : PcmWriter) (hrun : calls p cs = some w) (hnot : ¬ Aligned p cs)
      (h : Prepared p w) (hsize : w.size < (inputOf cs).length)

theorem calls_concat (cs : List WriterAVCallData) (c : WriterAVCallData) :
    calls p (cs ++ [c]) = (calls p cs).bind fun w => (writeData p w c).map Prod.snd :=
  run_concat _ _ _ _

theorem Outcome.refused {cs : List WriterAVCallData} {c : WriterAVCallData}
    (h : Outcome p cs) (hc : c.input = []) : Outcome p (cs ++ [c]) := by
  have hrun : calls p (cs ++ [c]) = calls p cs := by
    rw [calls_concat]
    cases hcs : calls p cs with
    | none => rfl
    | some w => simp only [Option.bind_some, writeData_refused hc, Option.map_some]
  have hinput : inputOf (cs ++ [c]) = inputOf cs := by
    rw [inputOf_append, inputOf_singleton, hc, List.append_nil]
  have haligned : Aligned p (cs ++ [c]) ↔ Aligned p cs := by
    rw [aligned_concat]
    exact and_iff_left (.inl hc)
  cases h with
  | stuck hnone h16 hlen => exact .stuck (hrun.trans hnone) h16 (hinput ▸ hlen)
  | fresh hstart hnil => exact .fresh (hrun.trans hstart) (hinput.trans hnil)
  | holds w hw ha hholds => exact .holds w (hrun.trans hw) (haligned.mpr ha) (hinput ▸ hholds)
  | loses w hw ha hprepared hsize =>
    exact .loses w (hrun.trans hw) (fun h => ha (haligned.mp h)) hprepared (hinput ▸ hsize)

theorem ready_start (hframe : 0 < p.subFrameLen) :
    ∃ u, ready p start = some u ∧ Holds p [] u ∧ u.breakBuffer = [] := by
  have hne : p.subFrame ≠ 0 := Nat.ne_of_gt ((subFrameLen_pos_iff p).mp hframe).1
  have hready : ready p start = prepareClipPlay { start with initialHeader := false } p := rfl
  rw [hready, prepareClipPlay, if_neg hne]
  refine ⟨_, rfl, ⟨⟨rfl, rfl, hframe⟩, [], rfl, ?_, Nat.dvd_zero _⟩, rfl⟩
  unfold reorder
  split <;> rfl

theorem outcome (hframe : 0 < p.subFrameLen) (cs : List WriterAVCallData) : Outcome p cs := by
  induction cs using List.reverseRecOn with
  | nil => exact .fresh rfl rfl
  | append_singleton cs c ih =>
    by_cases hc : c.input = []
    · exact ih.refused hc
    have hinput : inputOf (cs ++ [c]) = inputOf cs ++ c.input := by
      rw [inputOf_append, inputOf_singleton]
    have hlong : (inputOf (cs ++ [c])).length = (inputOf cs).length + c.input.length := by
      rw [hinput, List.length_append]
    -- the call follows a run, or the writer's first call is this one
    have hadd : ∀ w u, calls p cs = some w → ready p w = some u → Holds p (inputOf cs) u →
        Aligned p cs → (u.breakBuffer = [] ∨ p.subFrameLen ≤ c.input.length) →
        Outcome p (cs ++ [c]) := by
      intro w u hw hready hholds haligned hok
      have hall : Aligned p (cs ++ [c]) := by
        refine (aligned_concat cs c).mpr ⟨haligned, ?_⟩
        rcases hok with hnil | hlen
        · obtain ⟨front, hfront, -, hwhole⟩ := hholds.all
          rw [hnil, List.append_nil] at hfront
          exact .inr (.inr (hfront ▸ hwhole))
        · exact .inr (.inl hlen)
      have hstep := calls_concat (p := p) cs c
      rw [hw, Option.bind_some] at hstep
      rcases step_holds hc hready hholds hok with ⟨t, ht, htholds⟩ | ⟨hnone, h16, hlen⟩
      · exact .holds t (hstep.trans ht) hall (hinput ▸ htholds)
      · exact .stuck (hstep.trans hnone) h16 (by omega)
    cases ih with
    | stuck hnone h16 hlen =>
      refine .stuck ?_ h16 (by omega)
      rw [calls_concat, hnone]
      rfl
    | fresh hstart hnil =>
      obtain ⟨u, hready, hholds, hempty⟩ := ready_start hframe
      exact hadd start u hstart hready (hnil ▸ hholds) (aligned_of_inputOf_nil hnil) (.inl hempty)
    | holds w hw haligned hholds =>
      have hready : ready p w = some w := by rw [ready, hholds.begun]; rfl
      by_cases hok : w.breakBuffer = [] ∨ p.subFrameLen ≤ c.input.length
      · exact hadd w w hw hready hholds haligned hok
      · obtain ⟨hheld, hshort⟩ := not_or.mp hok
        obtain ⟨front, hfront, hpayload, hwhole⟩ := hholds.all
        have hlength := congrArg List.length hfront
        rw [List.length_append] at hlength
        have hpos : 0 < w.breakBuffer.length := List.length_pos_iff.mpr hheld
        have hnot : ¬ Aligned p (cs ++ [c]) := by
          intro h
          rcases ((aligned_concat cs c).mp h).2 with hnil | hlen | hdvd
          · exact hc hnil
          · exact hshort hlen
          · rw [hlength] at hdvd
            have hle := Nat.le_of_dvd hpos ((Nat.dvd_add_right hwhole).mp hdvd)
            exact absurd hholds.held (Nat.not_lt.mpr hle)
        refine .loses { w with breakBuffer := c.input } ?_ hnot
          ⟨hholds.begun, hholds.frame, Nat.not_le.mp hshort⟩ ?_
        · rw [calls_concat, hw, Option.bind_some, writeData_loop hc, hready, Option.bind_some,
            loop_short hholds.toPrepared hc (Nat.not_le.mp hshort)]
          rfl
        · have hcount := reorder_length hpayload
          show w.payload.length + c.input.length < _
          omega
    | loses w hw hnot hprepared hsize =>
      have hnot' : ¬ Aligned p (cs ++ [c]) := fun h => hnot ((aligned_concat cs c).mp h).1
      have hstep := calls_concat (p := p) cs c
      rw [hw, Option.bind_some] at hstep
      rcases step_size hc hprepared with ⟨t, ht, htprepared, htsize⟩ | ⟨hnone, h16, hlen⟩
      · exact .loses t (hstep.trans ht) hnot' htprepared (by omega)
      · exact .stuck (hstep.trans hnone) h16 (by omega)

theorem calls_endless (hframe : p.subFrameLen = 0) (cs : List WriterAVCallData) :
    calls p cs = if inputOf cs = [] then some start else none := by
  induction cs using List.reverseRecOn with
  | nil => rfl
  | append_singleton cs c ih =>
    rw [calls_concat, ih, inputOf_append, inputOf_singleton]
    by_cases hcs : inputOf cs = []
    · rw [if_pos hcs, hcs, Option.bind_some, List.nil_append]
      by_cases hc : c.input = []
      · rw [if_pos hc, writeData_refused hc]
        rfl
      · rw [if_neg hc, writeData_loop hc]
        have hready : ready p start = prepareClipPlay { start with initialHeader := false } p := rfl
        rw [hready, prepareClipPlay]
        split
        · rfl
        · rw [Option.bind_some, loop_endless hframe rfl hc]
          rfl
    · rw [if_neg hcs, if_neg fun h => hcs (List.append_eq_nil_iff.mp h).1]
      rfl

end PcmWriter

open PcmWriter

theorem sampleOrder_length (p : PcmPrivateData) (data : List Byte) :
    (sampleOrder p data).length = data.length := by
  unfold sampleOrder
  split
  · induction data using swapped.induct with
    | case1 a b rest ih => simp [swapped, ih]
    | case2 a => rfl
    | case3 => rfl
  · induction data using regrouped.induct with
    | case1 b0 b1 b2 b3 b4 b5 b6 b7 b8 b9 b10 b11 rest ih => simp [regrouped, ih]
    | case2 rest hnot => rw [regrouped.eq_2 rest hnot]

/-- The writer keeps its input in a run exactly if there is none, or: a packet has a
length, which takes a sample rate the writer knows and a sub-frame of at most 2016
bytes; no call shorter than a packet comes but after a whole number of packets; and
the samples have 16 bits or no packet is complete. -/
theorem keepsSamples_iff (p : PcmPrivateData) (cs : List WriterAVCallData) :
    KeepsSamples p cs ↔ inputOf cs = [] ∨
      (0 < p.subFrame ∧ p.subFrame ≤ 2016) ∧ Aligned p cs ∧
        (p.uBitsPerSample = 16 ∨ (inputOf cs).length < p.subFrameLen) := by
  rw [← subFrameLen_pos_iff]
  by_cases hframe : 0 < p.subFrameLen
  · cases outcome hframe cs with
    | stuck hrun h16 hlen =>
      refine iff_of_false (fun ⟨w, hw, _⟩ => ?_) fun h => ?_
      · rw [hrun] at hw
        exact absurd hw (by simp)
      · rcases h with hnil | ⟨-, -, h16' | hlt⟩
        · rw [hnil, List.length_nil] at hlen
          omega
        · exact h16 h16'
        · omega
    | fresh hrun hinput =>
      refine iff_of_true ⟨start, hrun, ?_, ?_⟩ (.inl hinput)
      · rw [hinput]
        show [] = (sampleOrder p (List.take 0 [])).map some
        unfold sampleOrder
        split <;> rfl
      · rw [hinput]
        rfl
    | holds w hrun haligned h =>
      obtain ⟨front, hfront, hpayload, hwhole⟩ := h.all
      have hlen := reorder_length hpayload
      have hkeeps : KeepsSamples p cs ↔ w.payload = (sampleOrder p front).map some := by
        have htake : (inputOf cs).take w.payload.length = front := by
          rw [hlen, hfront, List.take_left]
        have hdrop : (inputOf cs).drop w.payload.length = w.breakBuffer := by
          rw [hlen, hfront, List.drop_left]
        constructor
        · intro ⟨t, ht, hkept, _⟩
          obtain rfl := Option.some.inj (hrun.symm.trans ht)
          rw [htake] at hkept
          exact hkept
        · intro hkept
          exact ⟨w, hrun, by rw [htake]; exact hkept, hdrop.symm⟩
      rw [hkeeps, reorder_eq_sampleOrder_iff hpayload]
      have htotal := congrArg List.length hfront
      rw [List.length_append] at htotal
      have hheld := h.held
      constructor
      · intro hor
        refine .inr ⟨hframe, haligned, hor.imp id fun hnil => ?_⟩
        rw [hnil, List.length_nil] at htotal
        omega
      · intro hor
        rcases hor with hnil | ⟨-, -, h16 | hlt⟩
        · rw [hnil] at hfront
          exact .inr (List.append_eq_nil_iff.mp hfront.symm).1
        · exact .inl h16
        · refine .inr (List.eq_nil_of_length_eq_zero ?_)
          exact Nat.eq_zero_of_dvd_of_lt hwhole (by omega)
    | loses w hrun hnot h hsize =>
      refine iff_of_false (fun ⟨t, ht, hpayload, hheld⟩ => ?_) fun hor => ?_
      · obtain rfl := Option.some.inj (hrun.symm.trans ht)
        have htake := congrArg List.length hpayload
        have hdrop := congrArg List.length hheld
        rw [List.length_map, sampleOrder_length, List.length_take] at htake
        rw [List.length_drop] at hdrop
        unfold size at hsize
        omega
      · rcases hor with hnil | ⟨-, haligned, -⟩
        · rw [hnil, List.length_nil] at hsize
          omega
        · exact hnot haligned
  · have hzero : p.subFrameLen = 0 := Nat.eq_zero_of_not_pos hframe
    have hrun := calls_endless hzero cs
    by_cases hnil : inputOf cs = []
    · refine iff_of_true ⟨start, by rw [hrun, if_pos hnil], ?_, ?_⟩ (.inl hnil)
      · rw [hnil]
        show [] = (sampleOrder p (List.take 0 [])).map some
        unfold sampleOrder
        split <;> rfl
      · rw [hnil]
        rfl
    · refine iff_of_false (fun ⟨w, hw, _⟩ => ?_) fun h => ?_
      · rw [hrun, if_neg hnil] at hw
        exact absurd hw (by simp)
      · rcases h with h | ⟨h, -⟩
        · exact hnil h
        · exact hframe h

/-- Stereo at 48 kHz: of two calls of four bytes only the second is kept. -/
theorem writeData_overwrites :
    let p : PcmPrivateData := ⟨2, 48000, 16⟩
    let cs : List WriterAVCallData := [⟨3, some [1, 2, 3, 4]⟩, ⟨3, some [5, 6, 7, 8]⟩]
    (∃ w, PcmWriter.calls p cs = some w ∧ w.payload = [] ∧ w.breakBuffer = [5, 6, 7, 8]) ∧
      inputOf cs = [1, 2, 3, 4, 5, 6, 7, 8] ∧ ¬ KeepsSamples p cs := by
  intro p cs
  have hrun : (PcmWriter.calls p cs).map (fun w => (w.payload, w.breakBuffer))
      = some ([], [5, 6, 7, 8]) := by decide +kernel
  obtain ⟨w, hw, hparts⟩ := Option.map_eq_some_iff.mp hrun
  obtain ⟨hpayload, hheld⟩ := Prod.mk.inj hparts
  refine ⟨⟨w, hw, hpayload, hheld⟩, by decide +kernel, ?_⟩
  intro ⟨t, ht, hkept, hdrop⟩
  obtain rfl := Option.some.inj (hw.symm.trans ht)
  rw [hpayload, hheld] at hdrop
  exact absurd hdrop (by decide +kernel)

end Duckbox.Output

/-!
## Where the LPCM writer stalls

`prepareClipPlay` divides by the bytes of a sub-frame, and the loop of `writeData` goes on by
as many sub-frames as fit in a packet.

> `neverStalls_iff`: a format is prepared, and whatever is then written is gone through, a
> byte a pass at least, exactly if a sub-frame has some bytes and not more than fit.

A width that is rejected makes no difference to this, as nobody looks at what is returned. A
pass that runs off its buffer ends the loop here.
-/

namespace Duckbox.Output

open Duckbox.Lib PcmWriter

/-- What `prepareClipPlay` returns, "must be 16 or 24" if it is not 0. -/
def PcmPrivateData.result (p : PcmPrivateData) : Int :=
  if p.uBitsPerSample = 16 ∨ p.uBitsPerSample = 24 then 0 else 1

/-- A format is rejected, or a packet has sub-frames and fits in a PES packet. -/
def Established (p : PcmPrivateData) (w : PcmWriter) : Prop :=
  p.result ≠ 0 ∨ 0 < w.subFrameLen ∧ 1 ≤ w.subFramesPerPES ∧
    clpcmPes.length + clpcmPrv.length + w.subFrameLen ≤ Pes.maxPesPacketSize

/-- A format is prepared without a division by zero, and behind any calls the loop over
another one's data ends, with a byte taken in each pass at least. -/
structure NeverStalls (p : PcmPrivateData) : Prop where
  prepares : ∀ w, ∃ u, prepareClipPlay w p = some u ∧ Established p u
  ends : ∀ cs w buffer, calls p cs = some w → buffer ≠ [] →
    ∃ u r, ready p w = some u ∧ loopWithin (pass p) buffer.length u buffer = some r

variable {p : PcmPrivateData}

theorem prepareClipPlay_some (hframe : p.subFrame ≠ 0) (w : PcmWriter) :
    ∃ u, prepareClipPlay w p = some u ∧ u.subFrameLen = p.subFrameLen ∧
      u.subFramesPerPES = p.subFramesPerPES ∧ u.breakBuffer = [] := by
  unfold prepareClipPlay
  rw [if_neg hframe]
  exact ⟨_, rfl, rfl, rfl, rfl⟩

theorem ready_prepared (hframe : 0 < p.subFrameLen) {cs : List WriterAVCallData} {w : PcmWriter}
    (h : calls p cs = some w) : ∃ u, ready p w = some u ∧ Prepared p u := by
  have hbegun : ∀ {t}, Prepared p t → ready p t = some t := fun ht => by
    rw [ready, ht.begun]
    rfl
  cases outcome hframe cs with
  | stuck hrun h16 hlen => cases hrun.symm.trans h
  | fresh hrun hinput =>
    obtain rfl := Option.some.inj (hrun.symm.trans h)
    obtain ⟨u, hready, hholds, -⟩ := ready_start hframe
    exact ⟨u, hready, hholds.toPrepared⟩
  | holds t hrun haligned hholds =>
    obtain rfl := Option.some.inj (hrun.symm.trans h)
    exact ⟨t, hbegun hholds.toPrepared, hholds.toPrepared⟩
  | loses t hrun hnot hprepared hsize =>
    obtain rfl := Option.some.inj (hrun.symm.trans h)
    exact ⟨t, hbegun hprepared, hprepared⟩

theorem neverStalls_of_fits (hpos : 0 < p.subFrame) (hfits : p.subFrame ≤ 2016) :
    NeverStalls p := by
  have hframe := (subFrameLen_pos_iff p).mpr ⟨hpos, hfits⟩
  have hle := subFrameLen_le p
  refine ⟨fun w => ?_, fun cs w buffer hcalls _ => ?_⟩
  · obtain ⟨u, hprepare, hlength, hframes, -⟩ := prepareClipPlay_some (Nat.ne_of_gt hpos) w
    refine ⟨u, hprepare, .inr ⟨hlength ▸ hframe, ?_, ?_⟩⟩
    · rw [hframes]
      exact Nat.div_pos hfits hpos
    · rw [hlength]
      show 18 + 14 + _ ≤ 65400
      omega
  · obtain ⟨u, hready, hprepared⟩ := ready_prepared hframe hcalls
    have hloop : (∃ t, loopWithin (pass p) buffer.length u buffer = some (.ok t) ∧ _ ∧ _) ∨ _ :=
      loop_size hprepared
    rcases hloop with ⟨t, ht, -⟩ | ⟨⟨e, he⟩, -⟩
    · exact ⟨u, _, hready, ht⟩
    · exact ⟨u, _, hready, he⟩

theorem fits_of_neverStalls (h : NeverStalls p) : 0 < p.subFrame ∧ p.subFrame ≤ 2016 := by
  have hne : p.subFrame ≠ 0 := fun hzero => by
    obtain ⟨u, hprepare, -⟩ := h.prepares start
    rw [prepareClipPlay, if_pos hzero] at hprepare
    cases hprepare
  refine (subFrameLen_pos_iff p).mp (Nat.pos_of_ne_zero fun hzero => ?_)
  obtain ⟨u, r, hready, hloop⟩ := h.ends [] start [0] rfl (List.cons_ne_nil _ _)
  obtain ⟨t, hprepare, hlength, -, hheld⟩ :=
    prepareClipPlay_some hne { start with initialHeader := false }
  obtain rfl := Option.some.inj (hprepare.symm.trans hready)
  rw [loop_endless (hlength.trans hzero) hheld (List.cons_ne_nil _ _)] at hloop
  cases hloop

/-- A format never stalls the writer, exactly if a sub-frame has at least one byte and at
most the 2016 that a packet has for them. -/
theorem neverStalls_iff (p : PcmPrivateData) :
    NeverStalls p ↔ 0 < p.subFrame ∧ p.subFrame ≤ 2016 :=
  ⟨fits_of_neverStalls, fun h => neverStalls_of_fits h.1 h.2⟩

/-- Eight channels of 16 bits at 192 kHz: a sub-frame has 2560 bytes. -/
theorem eightChannels_stall : ¬ NeverStalls ⟨8, 192000, 16⟩ := by
  intro h
  exact absurd (fits_of_neverStalls h).2 (by decide)

end Duckbox.Output
