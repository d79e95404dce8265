import Duckbox.FrameParser.PlaybackTime
import Duckbox.H264.DeferredNumbering
import Duckbox.Lib.Slots

/-!
# The limit on what is deferred

`DeferDFIandPTSGeneration` of `FrameParser_VideoH264_c` in the builds without
`__TDT__`: behind the insertion the presentation times of the neighbours are
looked at, and where as many entries are deferred as there are decode buffers
(in reverse play as there are slots) the first or the last order count is
processed.

The two processing functions double the count they are given; the counts of the
entries are doubled already, and are handed to them so. Upwards the limit is
twice as far up as it should be, and what is in between goes too; downwards it is
beyond the last entry, and unless the doubling wraps nothing goes
(`limit_releasesOne_iff`).
-/

namespace Duckbox.H264

open Duckbox.FrameParser Duckbox.Lib DeferralRun

variable {n : Nat}

/-- The members of the parser that the function reads and writes. -/
structure DeferralParser (n : Nat) where
  deferral : Deferral n
  displayOrderByDpbValues : Bool
  dpbValuesInvalidatedByPTS : Bool
  picOrderCntOffset : BitVec 64
  picOrderCntOffsetAdjust : BitVec 64

/-- The arguments of `DeferDFIandPTSGeneration`, and what the policy says. -/
structure DeferredFrame (n : Nat) where
  buffer : Fin n
  parameters : CodedFrame
  extendedPicOrderCnt : BitVec 64
  specialCaseDpb : Bool

namespace Deferral

/-- The entry whose count is to go when too much is deferred. -/
def extreme (s : Deferral n) (forward : Bool) : Option (Fin n) :=
  if forward then s.orderedDeferredList.head? else s.orderedDeferredList.getLast?

/-- "Unable to defer, too many outstanding". -/
def release (s : Deferral n) (forward : Bool) : Deferral n :=
  match s.extreme forward with
  | none => s
  | some index =>
    if forward then s.processDeferredDFIandPTSUpto (s.extendedPicOrderCnt index + 1)
    else s.processDeferredDFIandPTSDownto (s.extendedPicOrderCnt index + 1)

end Deferral

namespace DeferralParser

/-- The insertion, the same in all builds. -/
def inserted (p : DeferralParser n) (frame : DeferredFrame n) : Deferral n :=
  p.deferral.deferDFIandPTSGeneration frame.buffer frame.parameters frame.extendedPicOrderCnt
    p.displayOrderByDpbValues frame.specialCaseDpb

/-- "A jump in PTS of the wrong direction", of less than a second. -/
def jumpsBack (before after : BitVec 64) : Bool :=
  validTime before && validTime after && after < before && before - after < 1000000

/-- Whether the entry in front of a place, or the one behind it, is out of order. -/
def invalidPTSSequence (normalizedPlaybackTime : Fin n → BitVec 64) (list : List (Fin n))
    (i : Nat) (buffer : Fin n) : Bool :=
  (match i with
    | 0 => false
    | i + 1 => list[i]?.any fun before =>
      jumpsBack (normalizedPlaybackTime before) (normalizedPlaybackTime buffer)) ||
    list[i + 1]?.any fun after =>
      jumpsBack (normalizedPlaybackTime buffer) (normalizedPlaybackTime after)

/-- "Where do we sit". -/
def place (p : DeferralParser n) (frame : DeferredFrame n) : Nat :=
  p.deferral.orderedDeferredList.findIdx fun index =>
    decide ((p.inserted frame).extendedPicOrderCnt frame.buffer <
      (p.inserted frame).extendedPicOrderCnt index)

/-- "Perform PTS validation". -/
def validatePTS (p : DeferralParser n) (invalidPTSSequence : Bool) : DeferralParser n :=
  if invalidPTSSequence && !p.dpbValuesInvalidatedByPTS then
    { p with
      dpbValuesInvalidatedByPTS := true
      displayOrderByDpbValues := false
      picOrderCntOffset := p.picOrderCntOffset + p.picOrderCntOffsetAdjust }
  else p

/-- `MaxDeferals`; the slots are `H264_CODED_FRAME_COUNT`. -/
def maxDeferals (n : Nat) (forward : Bool) (decodeBufferCount : Nat) : Nat :=
  if forward then decodeBufferCount else n

/-- `DeferDFIandPTSGeneration` without `__TDT__`. The playback times are those of
the parameters that the buffers have, the new one's included. -/
def deferDFIandPTSGeneration (p : DeferralParser n) (normalizedPlaybackTime : Fin n → BitVec 64)
    (forward : Bool) (decodeBufferCount : Nat) (frame : DeferredFrame n) : DeferralParser n :=
  let deferral := p.inserted frame
  let invalid := invalidPTSSequence normalizedPlaybackTime deferral.orderedDeferredList
    (p.place frame) frame.buffer
  let p := { p with deferral := deferral }.validatePTS invalid
  if maxDeferals n forward decodeBufferCount ≤ deferral.orderedDeferredList.length then
    { p with deferral := deferral.release forward }
  else p

end DeferralParser

/-! ## One order count -/

namespace Deferral

/-- The order count of a slot, without the bit for the second field. -/
def orderOf (s : Deferral n) (index : Fin n) : Nat := (s.extendedPicOrderCnt index).toNat / 2

/-- The slot has the earliest order count of the list, or the latest. -/
def isExtreme (s : Deferral n) (forward : Bool) (index : Fin n) : Bool :=
  (s.extreme forward).any fun other => s.orderOf index == s.orderOf other

/-- The slots of that count, in the order in which they are to be numbered. -/
def extremes (s : Deferral n) (forward : Bool) : List (Fin n) :=
  let slots := s.orderedDeferredList.filter (s.isExtreme forward)
  if forward then slots else slots.reverse

/-- The entries of one order count are numbered and cleared, the others stay as
they are, in their order. -/
structure ReleasesOne (s s' : Deferral n) (forward : Bool) : Prop where
  processes : s.Processes s' (s.extremes forward)
  kept : s'.orderedDeferredList =
    s.orderedDeferredList.filter fun index => !s.isExtreme forward index

/-- The counts leave room for the doubled limit: upwards every other count is at
least twice the first; downwards the limit, which then has to wrap, comes to lie
between the last count and the others. -/
def Apart (s : Deferral n) (forward : Bool) : Prop :=
  ∀ e, s.extreme forward = some e →
    if forward then
      (s.extendedPicOrderCnt e).toNat + 1 < 2 ^ 63 ∧
        ∀ index ∈ s.orderedDeferredList, s.orderOf index ≠ s.orderOf e →
          2 * ((s.extendedPicOrderCnt e).toNat + 1) ≤ (s.extendedPicOrderCnt index).toNat
    else
      ∀ index ∈ s.orderedDeferredList,
        (2 * ((s.extendedPicOrderCnt e).toNat + 1) % 2 ^ 64 + 1 <
            (s.extendedPicOrderCnt index).toNat ↔ s.orderOf index = s.orderOf e)

variable {s : Deferral n} {forward : Bool} {e index : Fin n}

theorem extreme_mem (h : s.extreme forward = some e) : e ∈ s.orderedDeferredList := by
  unfold extreme at h
  split at h
  · exact List.mem_of_head? h
  · exact List.mem_of_getLast? h

theorem isExtreme_iff (h : s.extreme forward = some e) :
    s.isExtreme forward index = true ↔ s.orderOf index = s.orderOf e := by
  unfold isExtreme
  rw [h, Option.any_some, beq_iff_eq]

theorem exists_extreme (h : s.orderedDeferredList ≠ []) (forward : Bool) :
    ∃ e, s.extreme forward = some e := by
  unfold extreme
  split
  · exact Option.ne_none_iff_exists'.mp (List.head?_eq_none_iff.not.mpr h)
  · exact Option.ne_none_iff_exists'.mp (List.getLast?_eq_none_iff.not.mpr h)

theorem toNat_doubled (c : BitVec 64) :
    ((c + 1) <<< 1).toNat = 2 * (c.toNat + 1) % 2 ^ 64 := by
  rw [BitVec.toNat_shiftLeft, Nat.shiftLeft_eq, BitVec.toNat_add]
  show (c.toNat + 1) % 2 ^ 64 * 2 ^ 1 % 2 ^ 64 = _
  omega

theorem filter_congr_iff {p q : Fin n → Bool} {l : List (Fin n)} :
    l.filter p = l.filter q ↔ ∀ index ∈ l, p index = q index := by
  constructor
  · intro h index hindex
    rw [Bool.eq_iff_iff]
    constructor
    · intro hp
      exact (List.mem_filter.mp (h ▸ List.mem_filter.mpr ⟨hindex, hp⟩)).2
    · intro hq
      exact (List.mem_filter.mp (h ▸ List.mem_filter.mpr ⟨hindex, hq⟩)).2
  · exact List.filter_congr

theorem releasesOne_iff {s' : Deferral n} {goes : Fin n → Bool}
    (hprocesses : s.Processes s'
      (if forward then s.orderedDeferredList.filter goes
        else (s.orderedDeferredList.filter goes).reverse))
    (hkept : s'.orderedDeferredList = s.orderedDeferredList.filter fun index => !goes index) :
    s.ReleasesOne s' forward ↔
      ∀ index ∈ s.orderedDeferredList, goes index = s.isExtreme forward index := by
  constructor
  · intro h index hindex
    have hsame := filter_congr_iff.mp (hkept.symm.trans h.kept) index hindex
    exact Bool.not_inj hsame
  · intro h
    refine ⟨?_, ?_⟩
    · unfold extremes
      rw [← filter_congr_iff.mpr h]
      exact hprocesses
    · rw [hkept]
      exact filter_congr_iff.mpr fun index hindex => congrArg not (h index hindex)

theorem releasesOne_upto_iff (h : Held s) (he : s.extreme true = some e) :
    s.ReleasesOne (s.release true) true ↔ s.Apart true := by
  have hrelease : s.release true = s.processDeferredDFIandPTSUpto (s.extendedPicOrderCnt e + 1) := by
    unfold release
    rw [he]
    rfl
  obtain ⟨hprocesses, hkept⟩ := h.upto (s.extendedPicOrderCnt e + 1)
  rw [hrelease, releasesOne_iff hprocesses hkept]
  have hmem := extreme_mem he
  have hcount : ∀ index, decide (s.extendedPicOrderCnt index <
      (s.extendedPicOrderCnt e + 1) <<< 1) = s.isExtreme true index ↔
        ((s.extendedPicOrderCnt index).toNat <
            2 * ((s.extendedPicOrderCnt e).toNat + 1) % 2 ^ 64 ↔
          s.orderOf index = s.orderOf e) := by
    intro index
    rw [Bool.eq_iff_iff, decide_eq_true_iff, isExtreme_iff he, BitVec.lt_def, toNat_doubled]
  simp only [hcount]
  have hbound := (s.extendedPicOrderCnt e).isLt
  constructor
  · intro hall e' he'
    obtain rfl := Option.some.inj (he.symm.trans he')
    have hfirst := (hall e hmem).mpr rfl
    refine ⟨by omega, ?_⟩
    intro index hindex hne
    have hnot := (hall index hindex).not.mpr hne
    omega
  · intro hapart index hindex
    obtain ⟨hsmall, hothers⟩ := hapart e he
    constructor
    · intro hlt
      by_contra hne
      have hle := hothers index hindex hne
      omega
    · intro heq
      unfold orderOf at heq
      omega

theorem releasesOne_downto_iff (h : Held s) (he : s.extreme false = some e) :
    s.ReleasesOne (s.release false) false ↔ s.Apart false := by
  have hrelease : s.release false =
      s.processDeferredDFIandPTSDownto (s.extendedPicOrderCnt e + 1) := by
    unfold release
    rw [he]
    rfl
  obtain ⟨hprocesses, hkept⟩ := h.downto (s.extendedPicOrderCnt e + 1)
  rw [hrelease, releasesOne_iff hprocesses hkept]
  have hcount : ∀ index, decide ((s.extendedPicOrderCnt e + 1) <<< 1 ||| 1 <
      s.extendedPicOrderCnt index) = s.isExtreme false index ↔
        (2 * ((s.extendedPicOrderCnt e).toNat + 1) % 2 ^ 64 + 1 <
            (s.extendedPicOrderCnt index).toNat ↔ s.orderOf index = s.orderOf e) := by
    intro index
    rw [Bool.eq_iff_iff, decide_eq_true_iff, isExtreme_iff he, BitVec.lt_def,
      toNat_shiftLeft_one_or_one, toNat_doubled]
  simp only [hcount]
  constructor
  · intro hall e' he'
    obtain rfl := Option.some.inj (he.symm.trans he')
    exact hall
  · intro hapart
    exact hapart e he

theorem releasesOne_release_iff (h : Held s) (hne : s.orderedDeferredList ≠ []) :
    s.ReleasesOne (s.release forward) forward ↔ s.Apart forward := by
  obtain ⟨e, he⟩ := exists_extreme hne forward
  cases forward with
  | true => exact releasesOne_upto_iff h he
  | false => exact releasesOne_downto_iff h he

end Deferral

/-! ## The limit -/

namespace DeferralParser

variable {p : DeferralParser n}

theorem deferral_validatePTS (p : DeferralParser n) (invalid : Bool) :
    (p.validatePTS invalid).deferral = p.deferral := by
  unfold validatePTS
  split <;> rfl

theorem deferral_deferDFIandPTSGeneration (p : DeferralParser n)
    (normalizedPlaybackTime : Fin n → BitVec 64) (forward : Bool) (decodeBufferCount : Nat)
    (frame : DeferredFrame n) :
    (p.deferDFIandPTSGeneration normalizedPlaybackTime forward decodeBufferCount frame).deferral =
      if maxDeferals n forward decodeBufferCount ≤ (p.inserted frame).orderedDeferredList.length
      then (p.inserted frame).release forward else p.inserted frame := by
  unfold deferDFIandPTSGeneration
  dsimp only
  split
  · rfl
  · exact deferral_validatePTS _ _

/-- Where the limit is met, for any list in order and any frame with a free slot,
one order count is numbered and the rest left exactly if the counts are apart. -/
theorem limit_releasesOne_iff (p : DeferralParser n) (normalizedPlaybackTime : Fin n → BitVec 64)
    (forward : Bool) (decodeBufferCount : Nat) (frame : DeferredFrame n)
    (hheld : Held p.deferral) (hunused : (p.deferral.deferredList frame.buffer).buffer = none)
    (hfull : maxDeferals n forward decodeBufferCount ≤
      (p.inserted frame).orderedDeferredList.length) :
    (p.inserted frame).ReleasesOne
        (p.deferDFIandPTSGeneration normalizedPlaybackTime forward decodeBufferCount
          frame).deferral forward ↔
      (p.inserted frame).Apart forward := by
  have hne : (p.inserted frame).orderedDeferredList ≠ [] :=
    List.ne_nil_of_mem (mem_defer.mpr (.inl rfl))
  rw [deferral_deferDFIandPTSGeneration, if_pos hfull]
  exact Deferral.releasesOne_release_iff (hheld.deferDFIandPTSGeneration hunused) hne

/-! ## Runs -/

/-- The calls of the parser that the list sees. -/
inductive Call (n : Nat) where
  | deferDFIandPTSGeneration (normalizedPlaybackTime : Fin n → BitVec 64) (forward : Bool)
      (decodeBufferCount : Nat) (frame : DeferredFrame n)
  | processDeferredDFIandPTSUpto (extendedPicOrderCnt : BitVec 64)
  | processDeferredDFIandPTSDownto (extendedPicOrderCnt : BitVec 64)

def step (p : DeferralParser n) : Call n → DeferralParser n
  | .deferDFIandPTSGeneration times forward decodeBufferCount frame =>
    p.deferDFIandPTSGeneration times forward decodeBufferCount frame
  | .processDeferredDFIandPTSUpto limit =>
    { p with deferral := p.deferral.processDeferredDFIandPTSUpto limit }
  | .processDeferredDFIandPTSDownto limit =>
    { p with deferral := p.deferral.processDeferredDFIandPTSDownto limit }

/-- A buffer is deferred once at a time. -/
def Callable (p : DeferralParser n) : Call n → Prop
  | .deferDFIandPTSGeneration _ _ _ frame => (p.deferral.deferredList frame.buffer).buffer = none
  | _ => True

theorem held_upto {s : Deferral n} (h : Held s) (limit : BitVec 64) :
    Held (s.processDeferredDFIandPTSUpto limit) := by
  obtain ⟨hprocesses, hkept⟩ := h.upto limit
  refine h.processes hprocesses ?_ (hkept ▸ List.filter_sublist)
  rw [hkept]
  exact List.filter_append_perm _ _

theorem held_downto {s : Deferral n} (h : Held s) (limit : BitVec 64) :
    Held (s.processDeferredDFIandPTSDownto limit) := by
  obtain ⟨hprocesses, hkept⟩ := h.downto limit
  refine h.processes hprocesses ?_ (hkept ▸ List.filter_sublist)
  rw [hkept]
  exact ((List.reverse_perm _).append_right _).trans (List.filter_append_perm _ _)

theorem held_release {s : Deferral n} (h : Held s) (forward : Bool) :
    Held (s.release forward) := by
  unfold Deferral.release
  split
  · exact h
  · split
    · exact held_upto h _
    · exact held_downto h _

theorem held_step {call : Call n} (hcall : p.Callable call) (h : Held p.deferral) :
    Held (p.step call).deferral := by
  cases call with
  | deferDFIandPTSGeneration times forward decodeBufferCount frame =>
    have hinserted : Held (p.inserted frame) := h.deferDFIandPTSGeneration hcall
    unfold step
    rw [deferral_deferDFIandPTSGeneration]
    split
    · exact held_release hinserted forward
    · exact hinserted
  | processDeferredDFIandPTSUpto limit => exact held_upto h limit
  | processDeferredDFIandPTSDownto limit => exact held_downto h limit

theorem held_reset : Held (Deferral.reset n) where
  ordered := ⟨List.nodup_nil, fun index => by simp [Deferral.reset], List.Pairwise.nil⟩
  used index h := absurd h List.not_mem_nil

/-- After `Reset`, with the offset for a direction. -/
def reset (n : Nat) (picOrderCntOffset : BitVec 64) : DeferralParser n :=
  ⟨Deferral.reset n, false, false, picOrderCntOffset, picOrderCntOffset⟩

theorem held_of_run (picOrderCntOffset : BitVec 64) (calls : List (Call n))
    (hcalls : Along step Callable (reset n picOrderCntOffset) calls) :
    Held (calls.foldl step (reset n picOrderCntOffset)).deferral :=
  foldl_inv (P := fun p => Held p.deferral) (fun hcall h => held_step hcall h) calls hcalls
    held_reset

/-! ## Two frames -/

/-- A frame in a buffer. -/
def frameIn (buffer : Fin n) (extendedPicOrderCnt : BitVec 64) : DeferredFrame n :=
  ⟨buffer, ⟨buffer, ⟨structureFrame, true, 1, 1, true, true⟩⟩, extendedPicOrderCnt, false⟩

/-- The first frame, where two are the limit. -/
def deferredOne (forward : Bool) (extendedPicOrderCnt : BitVec 64) : DeferralParser 2 :=
  (reset 2 0).deferDFIandPTSGeneration (fun _ => invalidTime) forward 2
    (frameIn 0 extendedPicOrderCnt)

theorem held_deferredOne (forward : Bool) (extendedPicOrderCnt : BitVec 64) :
    Held (deferredOne forward extendedPicOrderCnt).deferral :=
  held_of_run 0 [.deferDFIandPTSGeneration (fun _ => invalidTime) forward 2
    (frameIn 0 extendedPicOrderCnt)] ⟨rfl, trivial⟩

/-- A first count of zero leaves room, and goes alone. -/
theorem limit_releasesOne_zero :
    ((deferredOne true 0).inserted (frameIn 1 5)).ReleasesOne
        ((deferredOne true 0).deferDFIandPTSGeneration (fun _ => invalidTime) true 2
          (frameIn 1 5)).deferral true := by
  refine (limit_releasesOne_iff _ _ true 2 _ (held_deferredOne true 0) (by decide +kernel)
    (by decide +kernel)).mpr ?_
  intro e he
  have hfirst : ((deferredOne true 0).inserted (frameIn 1 5)).extreme true = some 0 := by
    decide +kernel
  obtain rfl := Option.some.inj (hfirst.symm.trans he)
  decide +kernel

/-- Two frames at the offset of forward play, and at that of reverse play: both go. -/
theorem limit_releases_both :
    ¬ ((deferredOne true 0x100000000).inserted (frameIn 1 0x100000002)).ReleasesOne
        ((deferredOne true 0x100000000).deferDFIandPTSGeneration (fun _ => invalidTime) true 2
          (frameIn 1 0x100000002)).deferral true ∧
      ¬ ((deferredOne false 0xffffffff00000000).inserted
          (frameIn 1 0xffffffff00000002)).ReleasesOne
        ((deferredOne false 0xffffffff00000000).deferDFIandPTSGeneration (fun _ => invalidTime)
          false 2 (frameIn 1 0xffffffff00000002)).deferral false := by
  constructor
  · intro h
    have hkept := h.kept
    revert hkept
    decide +kernel
  · intro h
    have hkept := h.kept
    revert hkept
    decide +kernel

end DeferralParser

end Duckbox.H264
