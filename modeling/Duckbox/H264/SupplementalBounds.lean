import Duckbox.FrameParser.AntiEmulationBounds
import Duckbox.H264.SupplementalInformation

/-!
# The bounds of supplemental enhancement information

Between two calls the function is at a byte of the unit without its emulation bytes
(`Here`), and `ConsumedSize` says which; so what it looks at, what it passes on and
where it stops can be said of that list of bytes alone.
-/

namespace Duckbox.H264

open Duckbox.Lib
open Duckbox.FrameParser
open Duckbox.FrameParser.AntiEmulation

/-! ## Types and sizes -/

theorem coded_of_lt {n : Nat} (h : n < 255) : coded n = [BitVec.ofNat 8 n] := by
  unfold coded
  rw [Nat.div_eq_of_lt h, Nat.mod_eq_of_lt h]
  rfl

theorem coded_add (n : Nat) : coded (n + 255) = 0xff :: coded n := by
  unfold coded
  rw [Nat.add_div_right n (by decide), Nat.add_mod_right, List.replicate_succ]
  rfl

theorem unchain_eq {l : List (BitVec 8)} : ∀ {n : Nat} {rest : List (BitVec 8)},
    unchain l = some (n, rest) → l = coded n ++ rest := by
  induction l with
  | nil => intro n rest h; cases h
  | cons b l ih =>
    intro n rest h
    unfold unchain at h
    split at h
    · next hff =>
      obtain ⟨⟨m, tail⟩, hm, heq⟩ := Option.map_eq_some_iff.mp h
      obtain ⟨rfl, rfl⟩ := Prod.mk.inj heq
      rw [coded_add, hff, List.cons_append, ← ih hm]
    · next hff =>
      obtain ⟨rfl, rfl⟩ := Prod.mk.inj (Option.some.inj h)
      have hlt : b.toNat < 255 := by
        have hle := b.isLt
        have hne : b.toNat ≠ 255 := fun he => hff (BitVec.eq_of_toNat_eq he)
        omega
      rw [coded_of_lt hlt, BitVec.ofNat_toNat, BitVec.setWidth_eq]
      rfl

/-! ## Where the stream is in the unit -/

variable {source memory : Nat → BitVec 8} {unitLength k : Nat} {s t : AntiEmulation}

/-- The stream is before byte `k` of the payload without its emulation bytes, and all
that is in the buffer may be read. -/
def Here (source : Nat → BitVec 8) (k : Nat) (s : AntiEmulation) : Prop :=
  ∃ base p, Inv source ⟨8 * k, 8 * (base + s.antiEmulationContent), 0⟩ s base p

/-- How far the payload has come into the buffer. -/
abbrev filled (source : Nat → BitVec 8) (s : AntiEmulation) : List (BitVec 8) :=
  withoutEmulation source s.antiEmulationSource

theorem loaded_length (source : Nat → BitVec 8) (unitLength : Nat) (s : AntiEmulation) :
    (loaded source unitLength s).length
      = min (withoutEmulation source unitLength).length (filled source s).length := by
  have hmono : ∀ {a b : Nat}, a ≤ b →
      (withoutEmulation source a).length ≤ (withoutEmulation source b).length :=
    fun h => (kept_mono h).length_le
  unfold loaded filled
  rcases Nat.le_total unitLength s.antiEmulationSource with h | h
  · rw [Nat.min_eq_left h, Nat.min_eq_left (hmono h)]
  · rw [Nat.min_eq_right h, Nat.min_eq_right (hmono h)]

theorem loaded_begins (source : Nat → BitVec 8) (unitLength : Nat) (s : AntiEmulation) :
    loaded source unitLength s <+: withoutEmulation source unitLength :=
  kept_mono (Nat.min_le_left _ _)

/-- The places of the stream and of the buffer. -/
structure Place (source : Nat → BitVec 8) (k : Nat) (s : AntiEmulation) (base : Nat) : Prop where
  pointer : base + s.pointer = k
  filled : (filled source s).length = base + s.antiEmulationContent
  bits : s.bits.At s.memory (8 * s.pointer)
  bytes : ∀ i, base + i < (H264.filled source s).length →
    s.memory i = (H264.filled source s).getD (base + i) 0

theorem Here.place (h : Here source k s) :
    ∃ base, Place source k s base ∧ k ≤ (filled source s).length := by
  obtain ⟨base, p, hinv⟩ := h
  have hposition : 8 * k = 8 * base + p := hinv.position
  have hwithin : 8 * k + 0 ≤ 8 * (base + s.antiEmulationContent) := hinv.within
  have hpointer := pointer_eq hinv.bits
  have hlength := hinv.holds.length
  refine ⟨base, ⟨by omega, hlength, ?_, fun i hi => ?_⟩, ?_⟩
  · rw [hpointer, show 8 * (p / 8) = p by omega]
    exact hinv.bits
  · exact hinv.holds.bytes i (by unfold filled at hi; omega)
  · unfold filled
    omega

theorem Here.inside_iff (h : Here source k s) :
    (Touch.next s).Inside source unitLength ↔ k < (loaded source unitLength s).length := by
  obtain ⟨base, hplace, -⟩ := h.place
  have hpointer := hplace.pointer
  have hfilled : (withoutEmulation source s.antiEmulationSource).length
      = base + s.antiEmulationContent := hplace.filled
  unfold Touch.Inside Touch.next
  dsimp only
  omega

theorem Here.move (h : Here source k s) {n : Nat} (hn : k + n ≤ (filled source s).length)
    {bits : BitStream} (hbits : bits.At s.memory (8 * (s.pointer + n))) :
    Here source (k + n) { s with bits := bits } := by
  obtain ⟨base, p, hinv⟩ := h
  have hposition : 8 * k = 8 * base + p := hinv.position
  have hpointer := pointer_eq hinv.bits
  have hlength := hinv.holds.length
  refine ⟨base, 8 * (s.pointer + n), hinv.stream hbits ?_ rfl (Nat.zero_le _) ?_⟩
  · show 8 * (k + n) = _
    omega
  · show 8 * (k + n) + 0 ≤ 8 * (base + s.antiEmulationContent)
    unfold filled at hn
    omega

theorem numeral_byte_at (m : Nat → BitVec 8) (q : Nat) :
    numeral (fun i => byteBit m (8 * q + i)) 8 = (m q).toNat := by
  rw [← numeral_byte (m q)]
  apply numeral_congr
  intro i hi
  unfold byteBit
  rw [Nat.mul_add_div (by decide), Nat.div_eq_of_lt hi, Nat.mul_add_mod, Nat.mod_eq_of_lt hi,
    Nat.add_zero]

theorem Here.byte (h : Here source k s) (hk : k < (loaded source unitLength s).length) :
    (s.memory s.pointer).toNat = ((loaded source unitLength s)[k]).toNat := by
  obtain ⟨base, hplace, -⟩ := h.place
  have hpointer := hplace.pointer
  have hfilled : k < (filled source s).length := by
    rw [loaded_length] at hk
    omega
  rw [hplace.bytes s.pointer (by omega), hpointer, List.getD_eq_getElem _ _ hfilled]
  exact congrArg BitVec.toNat (kept_getElem hfilled hk)

theorem Here.u8 (h : Here source k s) (hk : k < (loaded source unitLength s).length) :
    (H264.u8 s).1 = ((loaded source unitLength s)[k]).toNat ∧ Here source (k + 1) (H264.u8 s).2 := by
  obtain ⟨base, hplace, -⟩ := h.place
  obtain ⟨hvalue, hat, -⟩ := hplace.bits.get (n := 8) (by decide)
  have hlen := loaded_length source unitLength s
  refine ⟨?_, h.move (by omega) hat⟩
  rw [← h.byte hk]
  exact hvalue.trans (numeral_byte_at _ _)

theorem Here.show8 (h : Here source k s) : Here source k (H264.show8 s).2 := by
  obtain ⟨base, hplace, hle⟩ := h.place
  obtain ⟨-, hat, -⟩ := hplace.bits.showBits (n := 8) (by decide)
  exact h.move (n := 0) hle hat

theorem Here.show8_value (h : Here source k s) (hk : k < (loaded source unitLength s).length) :
    (H264.show8 s).1 = ((loaded source unitLength s)[k]).toNat := by
  obtain ⟨base, hplace, -⟩ := h.place
  obtain ⟨hvalue, -⟩ := hplace.bits.showBits (n := 8) (by decide)
  rw [← h.byte hk]
  exact hvalue.trans (numeral_byte_at _ _)

variable {size : Nat}

theorem Here.request (h : Here source k s) (hsize : size ≤ antiEmulationBufferSize - 16) :
    ((∃ t, s.checkAntiEmulationBuffer source size = some t) ↔ Fits source s size) ∧
      ∀ t, s.checkAntiEmulationBuffer source size = some t →
        Here source k t ∧ k + size ≤ (filled source t).length := by
  obtain ⟨base, p, hinv⟩ := h
  obtain ⟨hreturns, hkeeps⟩ := hinv.check hsize
  refine ⟨hreturns, fun t ht => ?_⟩
  obtain ⟨base', p', hinv'⟩ := hkeeps t ht
  have hlimit : 8 * k + 8 * size ≤ 8 * (base' + t.antiEmulationContent) := hinv'.limit
  have hlength := hinv'.holds.length
  refine ⟨⟨base', p', ?_⟩, by unfold filled; omega⟩
  exact { hinv' with
    limit := Nat.le_refl _
    within := by show 8 * k + 0 ≤ 8 * (base' + t.antiEmulationContent); omega }

/-! ## Chains -/

theorem loaded_skip (source : Nat → BitVec 8) (unitLength : Nat) : ∀ (n : Nat) (s : AntiEmulation),
    loaded source unitLength (skip n s) = loaded source unitLength s
  | 0, _ => rfl
  | n + 1, s => loaded_skip source unitLength n (u8 s).2

theorem skip_add (n m : Nat) : ∀ s : AntiEmulation, skip (n + m) s = skip m (skip n s) := by
  induction n with
  | zero => intro s; rw [Nat.zero_add]; rfl
  | succ n ih =>
    intro s
    rw [Nat.add_right_comm]
    exact ih (u8 s).2

/-- A chain that has been read off byte `k` and what follows it. -/
structure ChainAt (source : Nat → BitVec 8) (unitLength k : Nat) (s : AntiEmulation) (c : Chain) :
    Prop where
  value : unchain ((loaded source unitLength s).drop k)
    = some (c.value, (loaded source unitLength s).drop (k + c.count))
  le : k + c.count ≤ (loaded source unitLength s).length
  pos : 0 < c.count
  buffer : c.buffer = skip c.count s
  here : Here source (k + c.count) c.buffer

variable {fuel : Nat}

theorem chain_at : ∀ {k : Nat} {s : AntiEmulation} {c : Chain}, Here source k s →
    chain fuel s = some c → (∀ t ∈ c.touched, t.Inside source unitLength) →
      ChainAt source unitLength k s c := by
  induction fuel with
  | zero => intro k s c _ hc; cases hc
  | succ fuel ih =>
    intro k s c h hc hinside
    unfold chain at hc
    -- the byte that comes next is among those looked at
    have hfirst : ∀ {touched : List Touch}, (∀ t ∈ Touch.next s :: touched, t.Inside source unitLength) →
        k < (loaded source unitLength s).length :=
      fun hall => h.inside_iff.mp (hall _ List.mem_cons_self)
    simp only at hc
    split at hc
    · next hff =>
      obtain ⟨d, hd, rfl⟩ := Option.map_eq_some_iff.mp hc
      have hk := hfirst hinside
      obtain ⟨hvalue, hnext⟩ := h.u8 hk
      have hrest := ih hnext hd (fun t ht => hinside t (List.mem_cons_of_mem _ ht))
      have hloaded : loaded source unitLength (u8 s).2 = loaded source unitLength s := rfl
      have hcount : k + 1 + d.count = k + (d.count + 1) := by omega
      refine ⟨?_, ?_, Nat.succ_pos _, ?_, ?_⟩
      · have hbyte : (loaded source unitLength s)[k] = 0xff :=
          BitVec.eq_of_toNat_eq (hvalue.symm.trans hff)
        have htail := hrest.value
        rw [hloaded, hcount] at htail
        rw [List.drop_eq_getElem_cons hk]
        unfold unchain
        rw [if_pos hbyte, htail]
        rfl
      · have hle := hrest.le
        rw [hloaded, hcount] at hle
        exact hle
      · exact hrest.buffer
      · have hhere := hrest.here
        rw [hcount] at hhere
        exact hhere
    · next hff =>
      obtain rfl := Option.some.inj hc
      have hk := hfirst hinside
      obtain ⟨hvalue, hnext⟩ := h.u8 hk
      refine ⟨?_, hk, Nat.one_pos, rfl, hnext⟩
      have hbyte : (loaded source unitLength s)[k] ≠ 0xff := by
        intro heq
        rw [heq] at hvalue
        exact hff hvalue
      rw [List.drop_eq_getElem_cons hk]
      unfold unchain
      rw [if_neg hbyte, hvalue]

theorem chain_returns : ∀ {k n : Nat} {s : AntiEmulation} {rest : List (BitVec 8)},
    Here source k s → unchain ((loaded source unitLength s).drop k) = some (n, rest) →
      (loaded source unitLength s).length < k + fuel →
        ∃ c, chain fuel s = some c ∧ ∀ t ∈ c.touched, t.Inside source unitLength := by
  induction fuel with
  | zero =>
    intro k n s rest _ hunchain hfuel
    rw [List.drop_eq_nil_of_le (by omega)] at hunchain
    cases hunchain
  | succ fuel ih =>
    intro k n s rest h hunchain hfuel
    have hk : k < (loaded source unitLength s).length := by
      by_cases hk : k < (loaded source unitLength s).length
      · exact hk
      · rw [List.drop_eq_nil_of_le (by omega)] at hunchain
        cases hunchain
    have htouch : (Touch.next s).Inside source unitLength := h.inside_iff.mpr hk
    obtain ⟨hvalue, hnext⟩ := h.u8 hk
    rw [List.drop_eq_getElem_cons hk] at hunchain
    unfold unchain at hunchain
    unfold chain
    simp only
    split
    · next hff =>
      have hbyte : (loaded source unitLength s)[k] = 0xff :=
        BitVec.eq_of_toNat_eq (hvalue.symm.trans hff)
      rw [if_pos hbyte] at hunchain
      obtain ⟨⟨m, tail⟩, hm, -⟩ := Option.map_eq_some_iff.mp hunchain
      have hloaded : loaded source unitLength (u8 s).2 = loaded source unitLength s := rfl
      obtain ⟨d, hd, hinside⟩ := ih hnext (by rw [hloaded]; exact hm) (by rw [hloaded]; omega)
      rw [hd]
      exact ⟨_, rfl, List.forall_mem_cons.mpr ⟨htouch, hinside⟩⟩
    · exact ⟨_, rfl, List.forall_mem_singleton.mpr htouch⟩

theorem chain_unique : ∀ {fuel' : Nat} {s : AntiEmulation} {c c' : Chain},
    chain fuel s = some c → chain fuel' s = some c' → c = c' := by
  induction fuel with
  | zero => intro fuel' s c c' hc; cases hc
  | succ fuel ih =>
    intro fuel' s c c' hc hc'
    cases fuel' with
    | zero => cases hc'
    | succ fuel' =>
      unfold chain at hc hc'
      simp only at hc hc'
      split at hc
      · next hff =>
        rw [if_pos hff] at hc'
        obtain ⟨d, hd, rfl⟩ := Option.map_eq_some_iff.mp hc
        obtain ⟨d', hd', rfl⟩ := Option.map_eq_some_iff.mp hc'
        rw [ih hd hd']
      · next hff =>
        rw [if_neg hff] at hc'
        exact Option.some.inj (hc.symm.trans hc')

/-! ## Payloads -/

theorem withoutEmulation_length_le (source : Nat → BitVec 8) (n : Nat) :
    (withoutEmulation source n).length ≤ n := by
  unfold withoutEmulation kept
  rw [List.length_map]
  exact (List.length_filter_le _ _).trans (Nat.le_of_eq List.length_range)

theorem Here.payload_inside_iff (h : Here source k s) (size : Nat) :
    (∀ t ∈ (List.range size).map fun i => (⟨s, s.pointer + i⟩ : Touch), t.Inside source unitLength) ↔
      size = 0 ∨ k + size ≤ (loaded source unitLength s).length := by
  obtain ⟨base, hplace, -⟩ := h.place
  have hpointer := hplace.pointer
  have hfilled : (withoutEmulation source s.antiEmulationSource).length
      = base + s.antiEmulationContent := hplace.filled
  have htouch : ∀ i, (⟨s, s.pointer + i⟩ : Touch).Inside source unitLength ↔
      k + i < (loaded source unitLength s).length := by
    intro i
    unfold Touch.Inside
    dsimp only
    omega
  rw [List.forall_mem_map]
  constructor
  · intro hall
    by_cases hsize : size = 0
    · exact .inl hsize
    · have hlast := (htouch (size - 1)).mp (hall (size - 1) (List.mem_range.mpr (by omega)))
      exact .inr (by omega)
  · intro hfits i hi
    have hi := List.mem_range.mp hi
    exact (htouch i).mpr (by omega)

theorem Here.payload_bytes (h : Here source k s)
    (hsize : k + size ≤ (loaded source unitLength s).length) :
    ((List.range size).map fun i => s.memory (s.pointer + i))
      = ((withoutEmulation source unitLength).drop k).take size := by
  obtain ⟨base, hplace, -⟩ := h.place
  have hpointer := hplace.pointer
  have hlen := loaded_length source unitLength s
  apply List.ext_getElem
  · rw [List.length_map, List.length_range, List.length_take, List.length_drop]
    omega
  · intro i hi hi'
    rw [List.length_map, List.length_range] at hi
    rw [List.getElem_map, List.getElem_range, List.getElem_take, List.getElem_drop]
    have hfilled : k + i < (filled source s).length := by omega
    rw [hplace.bytes (s.pointer + i) (by omega), show base + (s.pointer + i) = k + i by omega,
      List.getD_eq_getElem _ _ hfilled]
    exact kept_getElem hfilled (by rw [withoutEmulation] at hlen; omega)

theorem Here.behindPayload (h : Here source k s) (hsize : k + size ≤ (filled source s).length) :
    Here source (k + size) (H264.behindPayload size s) :=
  h.move hsize (BitStream.at_setPointer s.memory (s.pointer + size))

/-! ## The test of the loop -/

theorem nextTest_eq {stops : Bool} {u : AntiEmulation} {tested : List Touch} :
    nextTest source unitLength k s = some (stops, u, tested) ↔
      ∃ t, requestNext source unitLength k s = some t ∧
        stops = ((show8 t).1 == 0x80) ∧ u = (show8 t).2 ∧ tested = [.next s, .next t] := by
  unfold nextTest
  constructor
  · intro h
    obtain ⟨t, ht, heq⟩ := Option.bind_eq_some_iff.mp h
    simp only [Option.some.injEq, Prod.mk.injEq] at heq
    exact ⟨t, ht, heq.1.symm, heq.2.1.symm, heq.2.2.symm⟩
  · rintro ⟨t, ht, rfl, rfl, rfl⟩
    exact Option.bind_eq_some_iff.mpr ⟨t, ht, rfl⟩

theorem Here.show8_ne_iff (h : Here source k s) (hk : k < (loaded source unitLength s).length) :
    (H264.show8 s).1 ≠ 0x80 ↔ (withoutEmulation source unitLength).getD k 0 ≠ 0x80 := by
  have hunit : k < (withoutEmulation source unitLength).length :=
    Nat.lt_of_lt_of_le hk (loaded_begins source unitLength s).length_le
  rw [h.show8_value hk, List.getD_eq_getElem _ _ hunit,
    ← (loaded_begins source unitLength s).getElem hk]
  exact not_congr ⟨fun he => BitVec.eq_of_toNat_eq he, fun he => congrArg BitVec.toNat he⟩

/-- What the test of the loop does where it looks at bytes of the unit. -/
structure TestAt (source : Nat → BitVec 8) (unitLength k : Nat) (stops : Bool) (u : AntiEmulation) :
    Prop where
  stops_iff : stops = true ↔ (withoutEmulation source unitLength).getD k 0 = 0x80
  here : Here source k u

theorem min_request_le (a : Nat) : min defaultAntiEmulationRequest a ≤ antiEmulationBufferSize - 16 :=
  (Nat.min_le_left _ _).trans (by decide)

theorem Here.requestNext (h : Here source k s)
    (ht : H264.requestNext source unitLength k s = some t)
    (hk : k < (loaded source unitLength s).length) :
    Here source k t ∧ k < (loaded source unitLength t).length := by
  have hunit : k < (withoutEmulation source unitLength).length :=
    Nat.lt_of_lt_of_le hk (loaded_begins source unitLength s).length_le
  have hle := withoutEmulation_length_le source unitLength
  unfold H264.requestNext at ht
  simp only at ht
  split at ht
  · obtain ⟨hhere, hasked⟩ := (h.show8.request (min_request_le _)).2 t ht
    refine ⟨hhere, ?_⟩
    rw [loaded_length]
    have hsome : 0 < min defaultAntiEmulationRequest (unitLength - k) := by
      unfold defaultAntiEmulationRequest
      omega
    omega
  · obtain rfl := Option.some.inj ht
    exact ⟨h.show8, hk⟩

theorem Here.testAt (h : Here source k s) {stops : Bool} {u : AntiEmulation} {tested : List Touch}
    (htest : nextTest source unitLength k s = some (stops, u, tested))
    (hk : k < (loaded source unitLength s).length) :
    TestAt source unitLength k stops u ∧ ∀ t ∈ tested, t.Inside source unitLength := by
  obtain ⟨t, ht, rfl, rfl, rfl⟩ := nextTest_eq.mp htest
  obtain ⟨hhere, hk'⟩ := h.requestNext ht hk
  refine ⟨⟨?_, hhere.show8⟩, ?_⟩
  · rw [beq_iff_eq]
    exact not_iff_not.mp (hhere.show8_ne_iff hk')
  · refine List.forall_mem_cons.mpr ⟨h.inside_iff.mpr hk, ?_⟩
    exact List.forall_mem_singleton.mpr (hhere.inside_iff.mpr hk')

theorem Here.nextTest_returns_iff (h : Here source k s)
    (hk : k < (loaded source unitLength s).length) :
    (∃ r, nextTest source unitLength k s = some r) ↔
      ((withoutEmulation source unitLength).getD k 0 ≠ 0x80 →
        Fits source (H264.show8 s).2 (min defaultAntiEmulationRequest (unitLength - k))) := by
  have hrequest := (h.show8.request (min_request_le (unitLength - k))).1
  have hreturns : (∃ r, nextTest source unitLength k s = some r) ↔
      ∃ t, H264.requestNext source unitLength k s = some t := by
    constructor
    · rintro ⟨⟨stops, u, tested⟩, hr⟩
      obtain ⟨t, ht, -⟩ := nextTest_eq.mp hr
      exact ⟨t, ht⟩
    · rintro ⟨t, ht⟩
      exact ⟨_, nextTest_eq.mpr ⟨t, ht, rfl, rfl, rfl⟩⟩
  rw [hreturns, ← h.show8_ne_iff hk]
  unfold H264.requestNext
  simp only
  split
  · next hgo => exact hrequest.trans ⟨fun hfits _ => hfits, fun hfits => hfits hgo⟩
  · next hstop => exact iff_of_true ⟨_, rfl⟩ (fun hgo => absurd hgo hstop)

/-! ## A pass -/

variable {σ : Type} {readSeiPayload : σ → AntiEmulation → Nat → Nat → σ × Bool}

variable {q : Sei σ} {p : Pass σ}

theorem messagePass_eq :
    messagePass readSeiPayload source unitLength fuel q = some p ↔
      ∃ type size, chain fuel q.buffer = some type ∧ chain fuel type.buffer = some size ∧
        bodyPass readSeiPayload source unitLength q type size = some p := by
  unfold messagePass
  constructor
  · intro h
    obtain ⟨type, htype, h⟩ := Option.bind_eq_some_iff.mp h
    obtain ⟨size, hsize, h⟩ := Option.bind_eq_some_iff.mp h
    exact ⟨type, size, htype, hsize, h⟩
  · rintro ⟨type, size, htype, hsize, h⟩
    exact Option.bind_eq_some_iff.mpr ⟨type, htype, Option.bind_eq_some_iff.mpr ⟨size, hsize, h⟩⟩

/-- A type and a size that have been read off the unit, and where that leaves the
function. -/
structure HeaderAt (source : Nat → BitVec 8) (unitLength : Nat) (q : Sei σ) (type size : Chain)
    (first : Nat) : Prop where
  first_eq : first = q.consumedSize + type.count + size.count
  typeRead : unchain ((loaded source unitLength q.buffer).drop q.consumedSize)
    = some (type.value, (loaded source unitLength q.buffer).drop (q.consumedSize + type.count))
  sizeRead : unchain ((loaded source unitLength q.buffer).drop (q.consumedSize + type.count))
    = some (size.value, (loaded source unitLength q.buffer).drop first)
  le : first ≤ (loaded source unitLength q.buffer).length
  lt : q.consumedSize < first
  buffer : size.buffer = skip (first - q.consumedSize) q.buffer
  here : Here source first size.buffer

theorem ChainAt.headerAt {type size : Chain}
    (htype : ChainAt source unitLength q.consumedSize q.buffer type)
    (hsize : ChainAt source unitLength (q.consumedSize + type.count) type.buffer size) :
    HeaderAt source unitLength q type size (q.consumedSize + type.count + size.count) := by
  have hloaded : loaded source unitLength type.buffer = loaded source unitLength q.buffer := by
    rw [htype.buffer, loaded_skip]
  have hvalue := hsize.value
  have hle := hsize.le
  have hpos := htype.pos
  rw [hloaded] at hvalue hle
  refine ⟨rfl, htype.value, hvalue, hle, by omega, ?_, hsize.here⟩
  rw [hsize.buffer, htype.buffer, ← skip_add]
  congr 1
  omega

theorem header_at {type size : Chain} (h : Here source q.consumedSize q.buffer)
    (htype : chain fuel q.buffer = some type) (hsize : chain fuel type.buffer = some size)
    (hinside : ∀ t ∈ type.touched ++ size.touched, t.Inside source unitLength) :
    HeaderAt source unitLength q type size (q.consumedSize + type.count + size.count) := by
  obtain ⟨hintype, hinsize⟩ := List.forall_mem_append.mp hinside
  have htypeAt := chain_at h htype hintype
  exact htypeAt.headerAt (chain_at htypeAt.here hsize hinsize)

variable {first : Nat}

theorem HeaderAt.whole_iff {type size : Chain} (h : HeaderAt source unitLength q type size first) :
    Whole readSeiPayload source unitLength q ↔
      PayloadWhole readSeiPayload source unitLength q type.value size.value first size.buffer := by
  have hle := h.le
  have hfirst : (loaded source unitLength q.buffer).length
      - ((loaded source unitLength q.buffer).drop first).length = first := by
    rw [List.length_drop]
    omega
  constructor
  · rintro ⟨payloadType, payloadSize, rest, rest', htype, hsize, hbody⟩
    obtain ⟨rfl, rfl⟩ := Prod.mk.inj (Option.some.inj (h.typeRead.symm.trans htype))
    obtain ⟨rfl, rfl⟩ := Prod.mk.inj (Option.some.inj (h.sizeRead.symm.trans hsize))
    rw [hfirst, ← h.buffer] at hbody
    exact hbody
  · intro hbody
    refine ⟨_, _, _, _, h.typeRead, h.sizeRead, ?_⟩
    rw [hfirst, ← h.buffer]
    exact hbody

theorem HeaderAt.unit {type size : Chain} (h : HeaderAt source unitLength q type size first) :
    (withoutEmulation source unitLength).drop q.consumedSize
      = coded type.value ++ coded size.value ++ (withoutEmulation source unitLength).drop first := by
  obtain ⟨more, hmore⟩ := loaded_begins source unitLength q.buffer
  have hle := h.le
  have hlt := h.lt
  have htype := unchain_eq h.typeRead
  have hsize := unchain_eq h.sizeRead
  rw [← hmore, List.drop_append_of_le_length (by omega), List.drop_append_of_le_length hle,
    htype, hsize, List.append_assoc, List.append_assoc, List.append_assoc]

theorem Here.requestPayload (h : Here source k s) (hgo : ¬ Rejected unitLength k size) :
    ((∃ t, H264.requestPayload source unitLength k size s = some t) ↔
        Fits source s (min (size + 4) (unitLength - k))) ∧
      ∀ t, H264.requestPayload source unitLength k size s = some t →
        Here source k t ∧ k + min (size + 4) (unitLength - k) ≤ (filled source t).length := by
  unfold Rejected antiEmulationBufferSize at hgo
  have hbuffer : antiEmulationBufferSize = 1024 := rfl
  unfold H264.requestPayload
  rw [show unitLength + size - (k + size) = unitLength - k by omega]
  exact h.request (by omega)

/-- What a pass is to do: look at bytes of the unit, and tile it further. -/
structure Pass.Tiles (source : Nat → BitVec 8) (unitLength : Nat) (q : Sei σ) (p : Pass σ) :
    Prop where
  inside : ∀ t ∈ p.touched, t.Inside source unitLength
  sizes : ∀ x ∈ p.payloads, x.bytes.length = x.payloadSize
  ends : ∀ ending, p.next = .inl ending →
    ∃ rest, (withoutEmulation source unitLength).drop q.consumedSize
      = p.payloads.flatMap Payload.message ++ rest ∧ ending.Before rest
  goesOn : ∀ u, p.next = .inr u →
    Here source u.consumedSize u.buffer ∧ q.consumedSize < u.consumedSize ∧
      u.consumedSize ≤ (withoutEmulation source unitLength).length ∧
      (withoutEmulation source unitLength).drop q.consumedSize
        = p.payloads.flatMap Payload.message
          ++ (withoutEmulation source unitLength).drop u.consumedSize

theorem Here.behind_loaded (h : Here source k t)
    (hasked : k + min (size + 4) (unitLength - k) ≤ (filled source t).length)
    (hk : k + size < (withoutEmulation source unitLength).length) :
    Here source (k + size) (H264.behindPayload size t) ∧
      k + size < (loaded source unitLength (H264.behindPayload size t)).length := by
  have hle := withoutEmulation_length_le source unitLength
  have hmore : k + size < (filled source t).length := by omega
  refine ⟨h.behindPayload (Nat.le_of_lt hmore), ?_⟩
  show k + size < (loaded source unitLength t).length
  rw [loaded_length]
  omega

theorem payloadPass_whole {type size : Chain} {header : List Touch}
    (hfirst : first = q.consumedSize + type.count + size.count)
    (hunit : first ≤ (withoutEmulation source unitLength).length) (h : Here source first t)
    (hasked : first + min (size.value + 4) (unitLength - first) ≤ (filled source t).length)
    (hle : first + size.value ≤ unitLength)
    (hp : payloadPass readSeiPayload source unitLength q type size header t = some p)
    (hinside : ∀ x ∈ p.touched, x.Inside source unitLength) :
    first + size.value ≤ (withoutEmulation source unitLength).length ∧
    ((readSeiPayload q.parser t type.value size.value).2 = true →
      first + size.value < (withoutEmulation source unitLength).length ∧
      ((withoutEmulation source unitLength).getD (first + size.value) 0 ≠ 0x80 →
        Fits source (show8 (behindPayload size.value t)).2
          (min defaultAntiEmulationRequest (unitLength - (first + size.value))))) ∧
    ∀ u, p.next = .inr u → Here source u.consumedSize u.buffer := by
  -- the payload is among the bytes looked at
  have hpayload : ∀ touched : List Touch,
      (∀ x ∈ header ++ (List.range size.value).map (fun i => (⟨t, t.pointer + i⟩ : Touch)) ++ touched,
        x.Inside source unitLength) →
      first + size.value ≤ (withoutEmulation source unitLength).length := by
    intro touched hall
    have hbytes := (List.forall_mem_append.mp (List.forall_mem_append.mp hall).1).2
    have hlen := loaded_length source unitLength t
    rcases (h.payload_inside_iff size.value).mp hbytes with hzero | hin
    · omega
    · omega
  unfold payloadPass at hp
  simp only [← hfirst] at hp
  split at hp
  · next hbad =>
    obtain rfl := Option.some.inj hp
    refine ⟨hpayload [] (by rw [List.append_nil]; exact hinside), fun hok => ?_,
      fun u hu => by cases hu⟩
    rw [hok] at hbad
    cases hbad
  · next hgood =>
    obtain ⟨⟨stops, u, tested⟩, htest, rfl⟩ := Option.map_eq_some_iff.mp hp
    have hin := hpayload _ hinside
    have hfilled : first + size.value ≤ (filled source t).length := by omega
    have hbehind := h.behindPayload hfilled
    -- the byte behind the payload is too
    have hnext : first + size.value
        < (loaded source unitLength (behindPayload size.value t)).length := by
      obtain ⟨w, hw, -, -, rfl⟩ := nextTest_eq.mp htest
      have htested := (List.forall_mem_append.mp hinside).2
      exact hbehind.inside_iff.mp (htested _ List.mem_cons_self)
    have hlen := loaded_length source unitLength (behindPayload size.value t)
    refine ⟨hin, fun _ => ⟨by omega, ?_⟩, fun v hv => ?_⟩
    · exact (hbehind.nextTest_returns_iff hnext).mp ⟨_, htest⟩
    · obtain ⟨htestAt, -⟩ := hbehind.testAt htest hnext
      cases stops with
      | true => cases hv
      | false =>
        obtain rfl := Sum.inr.inj hv
        exact htestAt.here

theorem payloadPass_tiles {type size : Chain} {header : List Touch}
    (hheader : HeaderAt source unitLength q type size first)
    (hin : ∀ x ∈ header, x.Inside source unitLength) (h : Here source first t)
    (hasked : first + min (size.value + 4) (unitLength - first) ≤ (filled source t).length)
    (hle : first + size.value ≤ (withoutEmulation source unitLength).length)
    (hmore : (readSeiPayload q.parser t type.value size.value).2 = true →
      first + size.value < (withoutEmulation source unitLength).length ∧
      ((withoutEmulation source unitLength).getD (first + size.value) 0 ≠ 0x80 →
        Fits source (show8 (behindPayload size.value t)).2
          (min defaultAntiEmulationRequest (unitLength - (first + size.value))))) :
    ∃ p, payloadPass readSeiPayload source unitLength q type size header t = some p ∧
      p.Tiles source unitLength q := by
  have hunitLength := withoutEmulation_length_le source unitLength
  have hlen := loaded_length source unitLength t
  have hloaded : first + size.value ≤ (loaded source unitLength t).length := by omega
  have htouched : ∀ x ∈ header ++ (List.range size.value).map (fun i => (⟨t, t.pointer + i⟩ : Touch)),
      x.Inside source unitLength :=
    List.forall_mem_append.mpr ⟨hin, (h.payload_inside_iff size.value).mpr (.inr hloaded)⟩
  have hbytes := h.payload_bytes hloaded
  -- the unit from the message on
  have hmessage : (withoutEmulation source unitLength).drop q.consumedSize
      = [(⟨type.value, size.value,
          (List.range size.value).map fun i => t.memory (t.pointer + i)⟩ : Payload)].flatMap
            Payload.message
        ++ (withoutEmulation source unitLength).drop (first + size.value) := by
    rw [hheader.unit, List.flatMap_singleton, hbytes]
    unfold Payload.message
    dsimp only
    simp only [← List.drop_drop, List.append_assoc, List.take_append_drop]
  have hsizes : ∀ x ∈ [(⟨type.value, size.value,
      (List.range size.value).map fun i => t.memory (t.pointer + i)⟩ : Payload)],
      x.bytes.length = x.payloadSize := by
    intro x hx
    obtain rfl := List.mem_singleton.mp hx
    rw [List.length_map, List.length_range]
  unfold payloadPass
  simp only [← hheader.first_eq]
  cases hok : (readSeiPayload q.parser t type.value size.value).2 with
  | false =>
    refine ⟨_, if_pos rfl, htouched, hsizes, fun ending hending => ?_, fun u hu => by cases hu⟩
    obtain rfl := Sum.inl.inj hending
    exact ⟨_, hmessage, trivial⟩
  | true =>
    obtain ⟨hlt, hfits⟩ := hmore hok
    obtain ⟨hbehind, hnext⟩ := h.behind_loaded hasked hlt
    obtain ⟨⟨stops, u, tested⟩, htest⟩ := (hbehind.nextTest_returns_iff hnext).mpr hfits
    obtain ⟨htestAt, htested⟩ := hbehind.testAt htest hnext
    rw [if_neg (by decide), htest]
    refine ⟨_, rfl, List.forall_mem_append.mpr ⟨htouched, htested⟩, hsizes,
      fun ending hending => ?_, fun v hv => ?_⟩
    · cases hstops : stops with
      | false => rw [hstops] at hending; cases hending
      | true =>
        rw [hstops] at hending
        obtain rfl := Sum.inl.inj hending
        refine ⟨_, hmessage, ?_⟩
        show ((withoutEmulation source unitLength).drop (first + size.value)).head? = some 0x80
        have hbyte := htestAt.stops_iff.mp hstops
        rw [List.getD_eq_getElem _ _ hlt] at hbyte
        rw [List.head?_drop, List.getElem?_eq_getElem hlt, hbyte]
    · cases hstops : stops with
      | true => rw [hstops] at hv; cases hv
      | false =>
        rw [hstops] at hv
        obtain rfl := Sum.inr.inj hv
        have hheaderlt := hheader.lt
        exact ⟨htestAt.here, by show q.consumedSize < first + size.value; omega,
          Nat.le_of_lt hlt, hmessage⟩

theorem bodyPass_whole {type size : Chain} (hheader : HeaderAt source unitLength q type size first)
    (hp : bodyPass readSeiPayload source unitLength q type size = some p)
    (hinside : ∀ x ∈ p.touched, x.Inside source unitLength) :
    PayloadWhole readSeiPayload source unitLength q type.value size.value first size.buffer ∧
      ∀ u, p.next = .inr u → Here source u.consumedSize u.buffer := by
  unfold bodyPass at hp
  simp only [← hheader.first_eq] at hp
  split at hp
  · next hrejected =>
    obtain rfl := Option.some.inj hp
    exact ⟨.inl hrejected, fun u hu => by cases hu⟩
  · next hgo =>
    obtain ⟨t, ht, hp⟩ := Option.bind_eq_some_iff.mp hp
    obtain ⟨hreturns, hkeeps⟩ := hheader.here.requestPayload hgo
    obtain ⟨hhere, hasked⟩ := hkeeps t ht
    have hunit : first ≤ (withoutEmulation source unitLength).length :=
      hheader.le.trans (loaded_begins source unitLength q.buffer).length_le
    have hle : first + size.value ≤ unitLength := by
      unfold Rejected at hgo
      omega
    obtain ⟨hin, -, hgoesOn⟩ :=
      payloadPass_whole hheader.first_eq hunit hhere hasked hle hp hinside
    refine ⟨.inr ⟨hreturns.mp ⟨t, ht⟩, hin, fun u hu => ?_⟩, hgoesOn⟩
    obtain rfl := Option.some.inj (ht.symm.trans hu)
    exact (payloadPass_whole hheader.first_eq hunit hhere hasked hle hp hinside).2.1

theorem bodyPass_tiles {type size : Chain} (hheader : HeaderAt source unitLength q type size first)
    (hin : ∀ x ∈ type.touched ++ size.touched, x.Inside source unitLength)
    (hwhole : PayloadWhole readSeiPayload source unitLength q type.value size.value first size.buffer) :
    ∃ p, bodyPass readSeiPayload source unitLength q type size = some p ∧
      p.Tiles source unitLength q := by
  unfold bodyPass
  simp only [← hheader.first_eq]
  split
  · refine ⟨_, rfl, hin, fun x hx => (by cases hx), fun ending hending => ?_, fun u hu => by cases hu⟩
    obtain rfl := Sum.inl.inj hending
    exact ⟨_, rfl, by rw [hheader.unit]; exact List.prefix_append _ _⟩
  · next hgo =>
    obtain ⟨hreturns, hkeeps⟩ := hheader.here.requestPayload hgo
    rcases hwhole with hrejected | ⟨hfits, hle, hmore⟩
    · exact absurd hrejected hgo
    · obtain ⟨t, ht⟩ := hreturns.mpr hfits
      obtain ⟨hhere, hasked⟩ := hkeeps t ht
      obtain ⟨p, hp, htiles⟩ := payloadPass_tiles hheader hin hhere hasked hle (hmore t ht)
      exact ⟨p, Option.bind_eq_some_iff.mpr ⟨t, ht, hp⟩, htiles⟩

theorem bodyPass_touched {type size : Chain}
    (hp : bodyPass readSeiPayload source unitLength q type size = some p) :
    type.touched ++ size.touched <+: p.touched := by
  unfold bodyPass at hp
  simp only at hp
  split at hp
  · obtain rfl := Option.some.inj hp
    exact List.prefix_rfl
  · obtain ⟨t, -, hp⟩ := Option.bind_eq_some_iff.mp hp
    unfold payloadPass at hp
    simp only at hp
    split at hp
    · obtain rfl := Option.some.inj hp
      exact List.prefix_append _ _
    · obtain ⟨r, -, rfl⟩ := Option.map_eq_some_iff.mp hp
      exact (List.prefix_append _ _).trans (List.prefix_append _ _)

theorem messagePass_whole (h : Here source q.consumedSize q.buffer)
    (hp : messagePass readSeiPayload source unitLength fuel q = some p)
    (hinside : ∀ x ∈ p.touched, x.Inside source unitLength) :
    Whole readSeiPayload source unitLength q ∧
      ∀ u, p.next = .inr u → Here source u.consumedSize u.buffer := by
  obtain ⟨type, size, htype, hsize, hbody⟩ := messagePass_eq.mp hp
  have hheader := header_at h htype hsize
    (fun x hx => hinside x ((bodyPass_touched hbody).subset hx))
  obtain ⟨hwhole, hgoesOn⟩ := bodyPass_whole hheader hbody hinside
  exact ⟨hheader.whole_iff.mpr hwhole, hgoesOn⟩

theorem messagePass_tiles (h : Here source q.consumedSize q.buffer)
    (hwhole : Whole readSeiPayload source unitLength q)
    (hfuel : (withoutEmulation source unitLength).length < fuel) :
    ∃ p, messagePass readSeiPayload source unitLength fuel q = some p ∧
      p.Tiles source unitLength q := by
  have hlen := (loaded_begins source unitLength q.buffer).length_le
  obtain ⟨payloadType, payloadSize, rest, rest', htypeRead, hsizeRead, -⟩ := id hwhole
  have hmany : (loaded source unitLength q.buffer).length < fuel := by omega
  obtain ⟨type, htype, hintype⟩ := chain_returns h htypeRead (Nat.lt_add_left _ hmany)
  have htypeAt := chain_at h htype hintype
  have hloaded : loaded source unitLength type.buffer = loaded source unitLength q.buffer := by
    rw [htypeAt.buffer, loaded_skip]
  obtain ⟨-, hrest⟩ := Prod.mk.inj (Option.some.inj (htypeAt.value.symm.trans htypeRead))
  obtain ⟨size, hsize, hinsize⟩ := chain_returns htypeAt.here
    (by rw [hloaded, hrest]; exact hsizeRead) (by rw [hloaded]; exact Nat.lt_add_left _ hmany)
  have hin := List.forall_mem_append.mpr ⟨hintype, hinsize⟩
  have hheader := header_at h htype hsize hin
  obtain ⟨p, hp, htiles⟩ := bodyPass_tiles hheader hin (hheader.whole_iff.mp hwhole)
  exact ⟨p, messagePass_eq.mpr ⟨type, size, htype, hsize, hp⟩, htiles⟩

theorem messagePass_unique {fuel' : Nat} {p' : Pass σ}
    (hp : messagePass readSeiPayload source unitLength fuel q = some p)
    (hp' : messagePass readSeiPayload source unitLength fuel' q = some p') : p = p' := by
  obtain ⟨type, size, htype, hsize, hbody⟩ := messagePass_eq.mp hp
  obtain ⟨type', size', htype', hsize', hbody'⟩ := messagePass_eq.mp hp'
  obtain rfl := chain_unique htype htype'
  obtain rfl := chain_unique hsize hsize'
  exact Option.some.inj (hbody.symm.trans hbody')

/-! ## The loop -/

theorem messages_cases {passes : Nat} {r : Result}
    (h : messages readSeiPayload source unitLength fuel passes q = some r) :
    ∃ p, messagePass readSeiPayload source unitLength fuel q = some p ∧ p.touched <+: r.touched ∧
      ∀ u, p.next = .inr u → ∃ passes' r',
        messages readSeiPayload source unitLength fuel passes' u = some r' ∧
        ∀ x ∈ r'.touched, x ∈ r.touched := by
  cases passes with
  | zero => cases h
  | succ passes =>
    obtain ⟨p, hp, h⟩ := Option.bind_eq_some_iff.mp h
    refine ⟨p, hp, ?_⟩
    cases hnext : p.next with
    | inl ending =>
      rw [hnext] at h
      obtain rfl := Option.some.inj h
      exact ⟨List.prefix_rfl, fun u hu => by cases hu⟩
    | inr u =>
      rw [hnext] at h
      obtain ⟨r', hr', h⟩ := Option.bind_eq_some_iff.mp h
      obtain rfl := Option.some.inj h
      refine ⟨List.prefix_append _ _, fun v hv => ?_⟩
      obtain rfl := Sum.inr.inj hv
      exact ⟨passes, r', hr', fun x hx => List.mem_append_right _ hx⟩

theorem messages_whole (n : Nat) : ∀ {passes : Nat} {q : Sei σ} {r : Result},
    Here source q.consumedSize q.buffer →
    messages readSeiPayload source unitLength fuel passes q = some r →
    (∀ x ∈ r.touched, x.Inside source unitLength) →
      WholeFor readSeiPayload source unitLength n q := by
  induction n with
  | zero => intro passes q r _ _ _; trivial
  | succ n ih =>
    intro passes q r h hr hinside
    obtain ⟨p, hp, htouched, hrest⟩ := messages_cases hr
    obtain ⟨hwhole, hgoesOn⟩ :=
      messagePass_whole h hp (fun x hx => hinside x (htouched.subset hx))
    refine ⟨hwhole, fun fuel' p' u hp' hu => ?_⟩
    obtain rfl := messagePass_unique hp hp'
    obtain ⟨passes', r', hr', hsub⟩ := hrest u hu
    exact ih (hgoesOn u hu) hr' (fun x hx => hinside x (hsub x hx))

/-- What the loop is to do from a byte of the unit on. -/
structure Result.Tiles (source : Nat → BitVec 8) (unitLength k : Nat) (r : Result) : Prop where
  inside : ∀ t ∈ r.touched, t.Inside source unitLength
  sizes : ∀ p ∈ r.payloads, p.bytes.length = p.payloadSize
  tiles : ∃ rest, (withoutEmulation source unitLength).drop k
    = r.payloads.flatMap Payload.message ++ rest ∧ r.ending.Before rest

theorem messages_tiles (hfuel : (withoutEmulation source unitLength).length < fuel) {passes : Nat} :
    ∀ {q : Sei σ}, Here source q.consumedSize q.buffer →
    (∀ n, WholeFor readSeiPayload source unitLength n q) →
    (withoutEmulation source unitLength).length < q.consumedSize + passes →
      ∃ r, messages readSeiPayload source unitLength fuel passes q = some r ∧
        r.Tiles source unitLength q.consumedSize := by
  induction passes with
  | zero =>
    intro q h hwhole hpasses
    -- a pass needs a byte of the unit
    obtain ⟨p, -, htiles⟩ := messagePass_tiles h (hwhole 1).1 hfuel
    obtain ⟨payloadType, payloadSize, rest, rest', htypeRead, -⟩ := (hwhole 1).1
    have hlen := (loaded_begins source unitLength q.buffer).length_le
    rw [List.drop_eq_nil_of_le (by omega)] at htypeRead
    cases htypeRead
  | succ passes ih =>
    intro q h hwhole hpasses
    obtain ⟨p, hp, htiles⟩ := messagePass_tiles h (hwhole 1).1 hfuel
    unfold messages
    cases hnext : p.next with
    | inl ending =>
      refine ⟨⟨ending, p.payloads, p.touched⟩, ?_, htiles.inside, htiles.sizes,
        htiles.ends ending hnext⟩
      rw [hp]
      simp only [Option.bind_eq_bind, Option.bind_some, hnext]
    | inr u =>
      obtain ⟨hhere, hlt, hle, hunit⟩ := htiles.goesOn u hnext
      obtain ⟨r, hr, hrest⟩ := ih hhere (fun n => (hwhole (n + 1)).2 fuel p u hp hnext) (by omega)
      obtain ⟨rest, htail, hbefore⟩ := hrest.tiles
      refine ⟨{ r with payloads := p.payloads ++ r.payloads, touched := p.touched ++ r.touched },
        ?_, List.forall_mem_append.mpr ⟨htiles.inside, hrest.inside⟩,
        List.forall_mem_append.mpr ⟨htiles.sizes, hrest.sizes⟩, rest, ?_, hbefore⟩
      · rw [hp]
        simp only [Option.bind_eq_bind, Option.bind_some, hnext]
        exact Option.bind_eq_some_iff.mpr ⟨r, hr, rfl⟩
      · rw [hunit, htail, List.flatMap_append, List.append_assoc]

/-! ## The function -/

theorem requestUnit_returns (source : Nat → BitVec 8) (unitLength : Nat) (memory : Nat → BitVec 8) :
    ∃ s, requestUnit source unitLength memory = some s ∧ Here source 0 s := by
  have hstart : Here source 0 (loadAntiEmulationBuffer memory) := ⟨0, 0, Inv.start source memory⟩
  obtain ⟨hreturns, hkeeps⟩ := hstart.request (min_request_le unitLength)
  have hfits : Fits source (loadAntiEmulationBuffer memory)
      (min defaultAntiEmulationRequest unitLength) := by
    intro _
    have hle : min defaultAntiEmulationRequest unitLength ≤ 32 := Nat.min_le_left _ _
    have hescapes := escapes_le source (min defaultAntiEmulationRequest unitLength + 3 - 0) 0
    have huntouched : (loadAntiEmulationBuffer memory).untouchedBytesInBuffer = 0 := by
      unfold untouchedBytesInBuffer
      have hcontent : (loadAntiEmulationBuffer memory).antiEmulationContent = 0 := rfl
      omega
    have hkept : (loadAntiEmulationBuffer memory).keptContent
        (min defaultAntiEmulationRequest unitLength) ≤ 1 := by
      unfold keptContent
      split
      · have hbegun := begun_le_one (loadAntiEmulationBuffer memory)
        omega
      · exact Nat.zero_le _
    have hbuffer : antiEmulationBufferSize = 1024 := rfl
    rw [huntouched]
    show _ + escapes source _ 0 ≤ _
    omega
  obtain ⟨s, hs⟩ := hreturns.mpr hfits
  exact ⟨s, hs, (hkeeps s hs).1⟩

/-- An unregistered user data message of one byte, a unit with its stop byte if four
bytes of it belong to the unit. -/
def userData (i : Nat) : BitVec 8 := [5, 1, 7, 0x80].getD i 0

/-- `ReadSeiPayload` on a type it does not handle. -/
def unhandled (parser : Unit) (_ : AntiEmulation) (_ _ : Nat) : Unit × Bool := (parser, true)

/-- What the buffer is before the unit `userData` is read. -/
def userDataBuffer (unitLength : Nat) : AntiEmulation :=
  (requestUnit userData unitLength fun _ => 0).getD (loadAntiEmulationBuffer fun _ => 0)

end Duckbox.H264
