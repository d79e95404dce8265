import Duckbox.BufferPool.ReferenceOwners
import Duckbox.H264.ParameterSetsAtomic
import Duckbox.H264.StreamParameters
import Duckbox.Lib.Owners

/-!
# Frames hold their parameter sets

A frame has its stream parameters buffer attached, that has a picture parameter
set attached, and that its sequence parameter set. `Linked` says so of every
frame, of the stream parameters that the next frame may use and of the table;
it is kept by every step that leaves the pointers of a structure in use as they
are, since the frame parser has one reference to each of its buffers (`Places`).
`NewStreamParametersCheck` writes other pointers where a parameter set has been
sent again unchanged; a run without that has every set that a frame points to
held for the frame (`setsHeld_of_admits`).
-/

namespace Duckbox.H264.Coded

open Duckbox.Lib Duckbox.FrameParser Duckbox.BufferPool

/-! ## Places and links -/

/-- Where the frame parser keeps its buffers; `hand` is a local variable. -/
inductive Place where
  | hand
  | sequence (i : Fin maxSequenceParameterSets)
  | picture (i : Fin maxPictureParameterSets)
  | streamParameters
  | frameParameters
  | pending
  | frame (k : Nat)
deriving DecidableEq

namespace Parser

variable {σ : Type} [BitSource σ] {n m : Nat} {pools : ParserPools n m}
  {owners : Finset (Fin n)} {s t : Parser n m} {b : Fin n}

/-- The coded frame that is being parsed, until it is queued. -/
def pending (s : Parser n m) : Option (Fin n) := if s.frameToDecode then none else s.buffer

def inPlace (s : Parser n m) (hand : Option (Fin n)) : Place → Option (Fin n)
  | .hand => hand
  | .sequence i => (s.sets.sequenceParameterSetTable i).map (·.buffer)
  | .picture i => (s.sets.pictureParameterSetTable i).map (·.buffer)
  | .streamParameters => s.streamParametersBuffer
  | .frameParameters => s.frameParametersBuffer
  | .pending => s.pending
  | .frame k => (s.frames[k]?).map (·.buffer)

/-- The sets that a stream parameters structure points to are attached. -/
def Filled (s : Parser n m) (b : Fin n) : Prop :=
  ∃ p q, s.streamParametersIn b = ⟨some q, some p⟩ ∧
    s.sets.manager.Holds b p ∧ s.sets.manager.Holds p q

/-- Parameter sets are attached to what points to them. -/
structure Linked (s : Parser n m) : Prop where
  entries : ∀ {i entry}, s.sets.pictureParameterSetTable i = some entry →
    s.sets.manager.Holds entry.buffer entry.sequenceBuffer
  current : ∀ {b}, s.streamParametersBuffer = some b →
    s.streamParameters = some b ∧ s.Filled b
  frames : ∀ {f}, f ∈ s.frames → s.sets.manager.Holds f.buffer f.streamParameters ∧
    s.Filled f.streamParameters ∧ s.streamParametersIn f.streamParameters = f.sliceHeader.pointers
  pending : ∀ {b}, s.pending = some b →
    (∀ c, ¬ s.sets.manager.Holds b c) ∧ ∀ c, ¬ s.sets.manager.Holds c b

structure Inv (pools : ParserPools n m) (s : Parser n m) (hand : Option (Fin n))
    (owners : Finset (Fin n)) : Prop where
  owned : Owned pools.poolOf s.sets.manager owners
  places : Places owners (s.inPlace hand)
  linked : s.Linked

/-! ## Moves of the manager -/

variable {manager : Manager n m}

theorem Filled.retain {new : Fin n → Fin n → Prop} (h : s.Filled b)
    (hretains : Retains owners new s.sets.manager manager)
    (hb : b ∈ owners ∨ ∃ c, manager.Holds c b) : (s.setManager manager).Filled b := by
  obtain ⟨p, q, hpointers, hbp, hpq⟩ := h
  have hbp' := hretains.holds hb hbp
  exact ⟨p, q, hpointers, hbp', hretains.holds (.inr ⟨b, hbp'⟩) hpq⟩

variable {hand : Option (Fin n)}

theorem Linked.retain {new : Fin n → Fin n → Prop} (h : s.Linked)
    (hretains : Retains owners new s.sets.manager manager)
    (hplaces : Places owners (s.inPlace hand))
    (hnew : ∀ b, s.pending = some b → ∀ c, ¬ new b c ∧ ¬ new c b) :
    (s.setManager manager).Linked := by
  refine ⟨fun {i entry} hi => ?_, fun {b} hb => ?_, fun {f} hf => ?_, fun {b} hb => ?_⟩
  · refine hretains.holds (.inl (hplaces.mem (p := .picture i) ?_)) (h.entries hi)
    show (s.sets.pictureParameterSetTable i).map _ = _
    rw [show s.sets.pictureParameterSetTable i = some entry from hi]
    rfl
  · obtain ⟨hpointer, hfilled⟩ := h.current hb
    exact ⟨hpointer, hfilled.retain hretains (.inl (hplaces.mem (p := .streamParameters) hb))⟩
  · obtain ⟨hholds, hfilled, hpointers⟩ := h.frames hf
    obtain ⟨k, hk⟩ := List.getElem?_of_mem hf
    have howned : f.buffer ∈ owners := by
      refine hplaces.mem (p := .frame k) ?_
      show (s.frames[k]?).map _ = _
      rw [show s.frames[k]? = some f from hk]
      rfl
    have hholds' := hretains.holds (.inl howned) hholds
    exact ⟨hholds', hfilled.retain hretains (.inr ⟨_, hholds'⟩), hpointers⟩
  · obtain ⟨hholds, hheld⟩ := h.pending hb
    refine ⟨fun c hc => ?_, fun c hc => ?_⟩
    · rcases hretains.sub hc with hc | hc
      · exact hholds c hc
      · exact (hnew b hb c).1 hc
    · rcases hretains.sub hc with hc | hc
      · exact hheld c hc
      · exact (hnew b hb c).2 hc

theorem Inv.forget (h : Inv pools s hand owners) : Inv pools s none owners := by
  refine ⟨h.owned, h.places.mono fun p => ?_, h.linked⟩
  cases p with
  | hand => exact .inl rfl
  | _ => exact .inr rfl

theorem Inv.getBuffer (h : Inv pools s none owners) {p : Fin m}
    (hget : s.sets.manager.getBuffer p = some (b, manager)) :
    b ∉ owners ∧ Inv pools (s.setManager manager) (some b) (insert b owners) ∧
      manager.Fresh b ∧ ∀ c, ¬ manager.Holds c b := by
  obtain ⟨hnot, howned, hretains, hunheld, hfresh⟩ := h.owned.getBuffer hget
  have hplaces : Places (insert b owners) (s.inPlace (some b)) := by
    refine h.places.put hnot (q := .hand) rfl fun p hp => ?_
    cases p with
    | hand => exact absurd rfl hp
    | _ => rfl
  exact ⟨hnot, ⟨howned, hplaces, h.linked.retain hretains hplaces fun _ _ _ => ⟨id, id⟩⟩, hfresh,
    hunheld⟩

/-- What dropping a buffer, if there is one, leaves. -/
def DropsTo (pools : ParserPools n m) (s : Manager n m) : Option (Fin n) → Manager n m → Prop
  | none, t => t = s
  | some b, t => s.decrementReferenceCount pools.poolOf b = some t

theorem drop_some {x : Option (Fin n)} (h : s.drop pools x = some t) :
    ∃ manager, DropsTo pools s.sets.manager x manager ∧ t = s.setManager manager := by
  cases x with
  | none => exact ⟨s.sets.manager, rfl, (Option.some.inj h).symm⟩
  | some b =>
    obtain ⟨manager, hmanager, rfl⟩ := Option.map_eq_some_iff.mp h
    exact ⟨manager, hmanager, rfl⟩

theorem Inv.dropHand (h : Inv pools s hand owners)
    (hdrop : DropsTo pools s.sets.manager hand manager) :
    ∃ owners', Inv pools (s.setManager manager) none owners' := by
  cases hand with
  | none =>
    obtain rfl := hdrop
    exact ⟨owners, h⟩
  | some b =>
    have hb : b ∈ owners := h.places.mem (p := .hand) rfl
    obtain ⟨howned, hretains⟩ := h.owned.decrementReferenceCount hb hdrop
    have hplaces : Places (owners.erase b) (s.inPlace none) := by
      refine h.places.erase (q := .hand) rfl rfl fun p hp => ?_
      cases p with
      | hand => exact absurd rfl hp
      | _ => rfl
    exact ⟨_, howned, hplaces, h.linked.retain hretains hplaces fun _ _ _ => ⟨id, id⟩⟩

theorem Inv.attachHand {c : Fin n} (h : Inv pools s (some b) owners) {q : Place}
    (hq : s.inPlace (some b) q = some c) (hhand : q ≠ .hand) (hpending : q ≠ .pending)
    (hunheld : ∀ d, ¬ s.sets.manager.Holds d b) :
    Inv pools (s.attach pools b c) (some b) owners ∧
      ((∀ i, s.sets.manager.slot b i = none) → (s.attach pools b c).sets.manager.Holds b c) ∧
      (∀ d, ¬ (s.attach pools b c).sets.manager.Holds d b) ∧
      ∀ d, s.sets.manager.Holds b d → (s.attach pools b c).sets.manager.Holds b d := by
  have hb : b ∈ owners := h.places.mem (p := .hand) rfl
  have hne : c ≠ b := by
    rintro rfl
    exact hhand (h.places.inj (q := .hand) hq rfl)
  obtain ⟨howned, hretains, hholds⟩ := h.owned.attachBuffer hb (h.owned.live (h.places.mem hq)) hne
    hunheld
  refine ⟨⟨howned, h.places, h.linked.retain hretains h.places fun d hd e => ⟨?_, ?_⟩⟩, hholds,
    fun d hd => ?_, fun d hd => hretains.holds (.inl hb) hd⟩
  · rintro ⟨rfl, -⟩
    exact nomatch h.places.inj (p := .pending) (q := .hand) hd rfl
  · rintro ⟨-, rfl⟩
    exact hpending (h.places.inj (q := .pending) hq hd)
  · rcases hretains.sub hd with hd | ⟨-, heq⟩
    · exact hunheld d hd
    · exact hne heq.symm

theorem Inv.exchange (h : Inv pools s hand owners) (t : Parser n m) (q : Place)
    (hand' : Option (Fin n)) (hmanager : t.sets.manager = s.sets.manager)
    (hhand : hand' = s.inPlace hand q) (hput : t.inPlace hand' q = hand)
    (hothers : ∀ p, p ≠ .hand → p ≠ q → t.inPlace hand' p = s.inPlace hand p) (hlinked : t.Linked) :
    Inv pools t hand' owners := by
  refine ⟨hmanager ▸ h.owned, h.places.reindex (Equiv.swap .hand q).injective fun p => .inr ?_,
    hlinked⟩
  by_cases hp : p = .hand
  · rw [hp, Equiv.swap_apply_left]
    exact hhand
  · by_cases hpq : p = q
    · rw [hpq, Equiv.swap_apply_right]
      exact hput
    · rw [Equiv.swap_apply_of_ne_of_ne hp hpq]
      exact hothers p hp hpq

/-! ## Parameter set NALs -/

/-- With an entry in the table. -/
def putSequence (s : Parser n m) (id : Fin maxSequenceParameterSets) (entry : SequenceEntry n) :
    Parser n m :=
  { s with
    sets := { s.sets with
      sequenceParameterSetTable := Function.update s.sets.sequenceParameterSetTable id (some entry) } }

def putPicture (s : Parser n m) (id : Fin maxPictureParameterSets) (entry : PictureEntry n) :
    Parser n m :=
  { s with
    sets := { s.sets with
      pictureParameterSetTable := Function.update s.sets.pictureParameterSetTable id (some entry) } }

theorem Inv.putSequence (id : Fin maxSequenceParameterSets) (entry : SequenceEntry n)
    (h : Inv pools s (some entry.buffer) owners) :
    Inv pools (s.putSequence id entry) ((s.sets.sequenceParameterSetTable id).map (·.buffer))
      owners := by
  have hlinked := h.linked
  refine h.exchange (s.putSequence id entry) (.sequence id) _ rfl rfl ?_ ?_
    ⟨hlinked.entries, hlinked.current, hlinked.frames, hlinked.pending⟩
  · show ((Function.update s.sets.sequenceParameterSetTable id _) id).map _ = _
    rw [Function.update_self]
    rfl
  · intro p hp hpq
    cases p with
    | hand => exact absurd rfl hp
    | sequence i =>
      show ((Function.update s.sets.sequenceParameterSetTable id _) i).map _ = _
      rw [Function.update_of_ne fun hi => hpq (by rw [hi])]
      rfl
    | _ => rfl

theorem Inv.putPicture (id : Fin maxPictureParameterSets) (entry : PictureEntry n)
    (h : Inv pools s (some entry.buffer) owners)
    (hholds : s.sets.manager.Holds entry.buffer entry.sequenceBuffer) :
    Inv pools (s.putPicture id entry) ((s.sets.pictureParameterSetTable id).map (·.buffer))
      owners := by
  have hlinked := h.linked
  refine h.exchange (s.putPicture id entry) (.picture id) _ rfl rfl ?_ ?_
    ⟨fun {i entry'} hi => ?_, hlinked.current, hlinked.frames, hlinked.pending⟩
  · show ((Function.update s.sets.pictureParameterSetTable id _) id).map _ = _
    rw [Function.update_self]
    rfl
  · intro p hp hpq
    cases p with
    | hand => exact absurd rfl hp
    | picture i =>
      show ((Function.update s.sets.pictureParameterSetTable id _) i).map _ = _
      rw [Function.update_of_ne fun hi => hpq (by rw [hi])]
      rfl
    | _ => rfl
  · have hi : Function.update s.sets.pictureParameterSetTable id (some entry) i = some entry' := hi
    by_cases hid : i = id
    · rw [hid, Function.update_self] at hi
      obtain rfl := Option.some.inj hi
      exact hholds
    · rw [Function.update_of_ne hid] at hi
      exact hlinked.entries hi

theorem dropEntry_some {sets t : ParameterSets n m} {x : Option (Fin n)}
    (h : sets.dropEntry pools.toPools x = some t) :
    ∃ manager, DropsTo pools sets.manager x manager ∧ t = { sets with manager := manager } := by
  cases x with
  | none => exact ⟨sets.manager, rfl, (Option.some.inj h).symm⟩
  | some b =>
    obtain ⟨manager, hmanager, rfl⟩ := decrement_some h
    exact ⟨manager, hmanager, rfl⟩

/-- Nothing else of the parser has to do with the holders. -/
theorem Inv.of_sets (h : ∃ owners', Inv pools { s with sets := t.sets } none owners')
    (hrest : t =
      { s with
        sets := t.sets
        members := t.members
        extension := t.extension
        readNewSPS := t.readNewSPS
        readNewPPS := t.readNewPPS }) :
    ∃ owners', Inv pools t none owners' := by
  obtain ⟨owners', hinv⟩ := h
  have hlinked := hinv.linked
  rw [hrest]
  exact ⟨owners', hinv.owned, hinv.places,
    ⟨hlinked.entries, hlinked.current, hlinked.frames, hlinked.pending⟩⟩

theorem Inv.sequenceParameterSet (h : Inv pools s none owners) {bits : σ}
    (ht : s.sequenceParameterSet pools bits = some t) : ∃ owners', Inv pools t none owners' := by
  obtain ⟨r, hr, rfl⟩ := Option.map_eq_some_iff.mp ht
  refine Inv.of_sets ?_ rfl
  rcases readNalSequenceParameterSet_cases hr with hsame | ⟨b, manager, hget, hcases⟩
  · rw [hsame]
    exact ⟨owners, h⟩
  · obtain ⟨-, hinv, -, -⟩ := h.getBuffer hget
    rcases hcases with hkept | ⟨manager', hdrop, hgiven⟩ | ⟨_, id, read, -, -, hinstall⟩
    · rw [hkept]
      exact ⟨_, hinv.forget⟩
    · rw [hgiven]
      exact hinv.dropHand hdrop
    · obtain ⟨u, hu, hsets⟩ := Option.map_eq_some_iff.mp hinstall
      obtain ⟨manager', hdrop, rfl⟩ := dropEntry_some hu
      rw [← hsets]
      -- the new entry may be in the table before the old one is dropped
      exact (hinv.putSequence id ⟨b, read.header⟩).dropHand hdrop

theorem Inv.pictureParameterSet (h : Inv pools s none owners) {bits : σ}
    (ht : s.pictureParameterSet pools bits = some t) : ∃ owners', Inv pools t none owners' := by
  obtain ⟨r, hr, rfl⟩ := Option.map_eq_some_iff.mp ht
  refine Inv.of_sets ?_ rfl
  rcases readNalPictureParameterSet_cases hr with hsame | ⟨b, manager, hget, hcases⟩
  · rw [hsame]
    exact ⟨owners, h⟩
  · obtain ⟨-, hinv, hfresh, hunheld⟩ := h.getBuffer hget
    rcases hcases with hkept | ⟨manager', hdrop, hgiven⟩ | ⟨id, seqId, sps, _, -, hsps, hcases⟩
    · rw [hkept]
      exact ⟨_, hinv.forget⟩
    · rw [hgiven]
      exact hinv.dropHand hdrop
    · have hplace : (s.setManager manager).inPlace (some b) (.sequence seqId) = some sps.buffer := by
        show (s.sets.sequenceParameterSetTable seqId).map _ = _
        rw [hsps]
        rfl
      obtain ⟨hattached, hholds, -, -⟩ := hinv.attachHand hplace (by simp) (by simp) hunheld
      rcases hcases with ⟨manager', hdrop, hgiven⟩ | ⟨read, -, hinstall⟩
      · rw [hgiven]
        exact hattached.dropHand hdrop
      · obtain ⟨u, hu, hsets⟩ := Option.map_eq_some_iff.mp hinstall
        obtain ⟨manager', hdrop, rfl⟩ := dropEntry_some hu
        rw [← hsets]
        exact (hattached.putPicture id ⟨b, sps.buffer, read.header⟩
          (hholds hfresh.slots)).dropHand hdrop

/-! ## Frames -/

theorem Inv.input (h : Inv pools s none owners) (ht : s.input pools = some t) :
    ∃ owners', Inv pools t none owners' := by
  unfold Parser.input at ht
  split at ht
  · next b manager hbuffer hget =>
    obtain rfl := Option.some.inj ht
    obtain ⟨-, hinv, hfresh, hunheld⟩ := h.getBuffer hget
    have hpending : s.pending = none := by
      unfold Parser.pending
      rw [hbuffer, ite_self]
    have hlinked := hinv.linked
    refine ⟨_, hinv.exchange { s.setManager manager with
        buffer := some b
        frameToDecode := false } .pending none rfl hpending.symm rfl ?_
      ⟨hlinked.entries, hlinked.current, hlinked.frames, fun {c} hc => ?_⟩⟩
    · intro p hp hpq
      cases p with
      | hand => exact absurd rfl hp
      | pending => exact absurd rfl hpq
      | _ => rfl
    · obtain rfl : b = c := Option.some.inj hc
      refine ⟨fun d hd => ?_, hunheld⟩
      obtain ⟨i, hi⟩ := hd
      exact nomatch (hfresh.slots i).symm.trans hi
  · obtain rfl := Option.some.inj ht
    exact ⟨owners, h⟩

theorem Inv.finish (h : Inv pools s none owners) (ht : s.finish pools = some t) :
    ∃ owners', Inv pools t none owners' := by
  have hlinked := h.linked
  unfold Parser.finish at ht
  split at ht
  · obtain rfl := Option.some.inj ht
    refine ⟨owners, h.owned, h.places.mono fun p => ?_,
      ⟨hlinked.entries, hlinked.current, hlinked.frames, fun hb => nomatch hb⟩⟩
    cases p with
    | pending => exact .inl rfl
    | _ => exact .inr rfl
  · next hframe =>
    obtain ⟨u, hu, rfl⟩ := Option.map_eq_some_iff.mp ht
    obtain ⟨manager, hdrop, rfl⟩ := drop_some hu
    have hpending : s.pending = s.buffer := if_neg hframe
    have hmoved : Inv pools { s with buffer := none } s.buffer owners := by
      have hnone : ({ s with buffer := none } : Parser n m).pending = none := ite_self none
      refine h.exchange { s with buffer := none } .pending _ rfl hpending.symm hnone ?_
        ⟨hlinked.entries, hlinked.current, hlinked.frames, fun hb => nomatch hnone.symm.trans hb⟩
      intro p hp hpq
      cases p with
      | hand => exact absurd rfl hp
      | pending => exact absurd rfl hpq
      | _ => rfl
    exact hmoved.dropHand hdrop

/-- The places of the frames that stay when one is taken out. -/
def behind (k : Nat) : Place → Place
  | .hand => .frame k
  | .frame i => if i < k then .frame i else .frame (i + 1)
  | p => p

theorem behind_injective (k : Nat) : Function.Injective (behind k) := by
  intro p q h
  cases p <;> cases q <;> simp only [behind] at h <;> grind

theorem Inv.release (h : Inv pools s none owners) {k : Nat} (ht : s.release pools k = some t) :
    ∃ owners', Inv pools t none owners' := by
  obtain ⟨manager, hdrop, rfl⟩ := drop_some ht
  have hlinked := h.linked
  refine Inv.dropHand (s := { s with frames := s.frames.eraseIdx k })
    ⟨h.owned, h.places.reindex (behind_injective k) fun p => .inr ?_,
      ⟨hlinked.entries, hlinked.current, fun hf => hlinked.frames (List.mem_of_mem_eraseIdx hf),
        hlinked.pending⟩⟩ hdrop
  cases p with
  | frame i =>
    show ((s.frames.eraseIdx k)[i]?).map _ = s.inPlace none (if i < k then .frame i else .frame (i + 1))
    rw [List.getElem?_eraseIdx]
    split <;> rfl
  | _ => rfl

/-! ## Slices -/

/-- The slice header that a slice would be committed with. -/
def headerFor (s : Parser n m) (nal : SliceNal) : Option (CurrentSlice n) :=
  if nal.first then
    nal.picParameterSetId.bind fun id =>
      (s.sets.pictureParameterSetTable id).map fun sets => ⟨id, sets, nal.valid⟩
  else s.sliceHeader

/-- The sets of a slice header are those in the table, where the stream parameters
will be new, and those the stream parameters have, where they stay. -/
def Settled (s : Parser n m) (slice : CurrentSlice n) : Prop :=
  if s.differs slice.sets then
    s.sets.pictureParameterSetTable slice.picParameterSetId = some slice.sets
  else ∃ b, s.streamParameters = some b ∧ s.streamParametersIn b = slice.sets.pointers

theorem Inv.getNewFrameParameters (h : Inv pools s none owners) {obtained : Bool}
    (ht : s.getNewFrameParameters pools = some (obtained, t)) :
    (∃ owners', Inv pools t none owners') ∧ ∃ manager buffer frameParameters sliceHeader,
      t = { s.setManager manager with
        frameParametersBuffer := buffer
        frameParameters := frameParameters
        sliceHeader := sliceHeader } := by
  obtain ⟨u, hu, ht⟩ := Option.map_eq_some_iff.mp ht
  obtain ⟨manager, hdrop, rfl⟩ := drop_some hu
  have hlinked := h.linked
  have hmoved : Inv pools { s with frameParametersBuffer := none } s.frameParametersBuffer owners := by
    refine h.exchange { s with frameParametersBuffer := none } .frameParameters _ rfl rfl rfl
      ?_ ⟨hlinked.entries, hlinked.current, hlinked.frames, hlinked.pending⟩
    intro p hp hpq
    cases p with
    | hand => exact absurd rfl hp
    | frameParameters => exact absurd rfl hpq
    | _ => rfl
  obtain ⟨owners', hdropped⟩ := hmoved.dropHand hdrop
  split at ht
  · obtain ⟨-, rfl⟩ := Prod.mk.inj ht
    exact ⟨⟨owners', hdropped⟩, manager, none, s.frameParameters, s.sliceHeader, rfl⟩
  · next b manager' hget =>
    obtain ⟨-, rfl⟩ := Prod.mk.inj ht
    obtain ⟨-, hinv, -, -⟩ := hdropped.getBuffer hget
    have hlinked' := hinv.linked
    refine ⟨⟨_, hinv.exchange { s.setManager manager' with
        frameParametersBuffer := some b
        frameParameters := true
        sliceHeader := none } .frameParameters none rfl rfl rfl ?_
      ⟨hlinked'.entries, hlinked'.current, hlinked'.frames, hlinked'.pending⟩⟩,
      manager', some b, true, none, rfl⟩
    intro p hp hpq
    cases p with
    | hand => exact absurd rfl hp
    | frameParameters => exact absurd rfl hpq
    | _ => rfl

theorem Inv.readNalSliceHeader (h : Inv pools s none owners) {nal : SliceNal} {read : Bool}
    (ht : s.readNalSliceHeader pools nal = some (read, t)) :
    (∃ owners', Inv pools t none owners') ∧ t.frameToDecode = s.frameToDecode ∧
      ∀ slice, read = true → t.sliceHeader = some slice →
        s.headerFor nal = some slice ∧ (s.Settled slice → t.Settled slice) := by
  unfold Parser.readNalSliceHeader at ht
  unfold headerFor
  split at ht
  · next hfirst =>
    obtain ⟨⟨obtained, u⟩, hu, ht⟩ := Option.map_eq_some_iff.mp ht
    obtain ⟨⟨owners', hinv⟩, manager, buffer, frameParameters, sliceHeader, rfl⟩ :=
      h.getNewFrameParameters hu
    dsimp only at ht
    split at ht
    · next id entry hid hentry =>
      rw [hid] at hentry ⊢
      have hentry : s.sets.pictureParameterSetTable id = some entry := hentry
      split at ht
      · obtain ⟨-, rfl⟩ := Prod.mk.inj ht
        have hlinked := hinv.linked
        refine ⟨⟨owners', hinv.owned, hinv.places,
          ⟨hlinked.entries, hlinked.current, hlinked.frames, hlinked.pending⟩⟩, rfl,
          fun slice _ hslice => ⟨?_, fun hsettled => hsettled⟩⟩
        obtain rfl := Option.some.inj hslice
        rw [if_pos hfirst, Option.bind_some, hentry]
        rfl
      · obtain ⟨rfl, rfl⟩ := Prod.mk.inj ht
        exact ⟨⟨owners', hinv⟩, rfl, fun slice hread => nomatch hread⟩
    · obtain ⟨rfl, rfl⟩ := Prod.mk.inj ht
      exact ⟨⟨owners', hinv⟩, rfl, fun slice hread => nomatch hread⟩
  · next hfirst =>
    rw [if_neg hfirst]
    split at ht
    · obtain ⟨-, rfl⟩ := Prod.mk.inj (Option.some.inj ht)
      exact ⟨⟨owners, h⟩, rfl, fun slice _ hslice => ⟨hslice, fun hsettled => hsettled⟩⟩
    · obtain ⟨-, rfl⟩ := Prod.mk.inj (Option.some.inj ht)
      exact ⟨⟨owners, h⟩, rfl, fun slice _ hslice => ⟨hslice, fun hsettled => hsettled⟩⟩

theorem Inv.getNewStreamParameters (h : Inv pools s none owners) {got : Option (Fin n)}
    (ht : s.getNewStreamParameters pools = some (got, t)) :
    t.frameToDecode = s.frameToDecode ∧
      t.sets.pictureParameterSetTable = s.sets.pictureParameterSetTable ∧
      match got with
      | none => ∃ owners', Inv pools t none owners'
      | some b => t.streamParametersBuffer = some b ∧ t.streamParameters = some b ∧
        (∃ owners', Inv pools { t with streamParametersBuffer := none } (some b) owners') ∧
        t.sets.manager.Fresh b ∧ ∀ c, ¬ t.sets.manager.Holds c b := by
  obtain ⟨u, hu, ht⟩ := Option.map_eq_some_iff.mp ht
  obtain ⟨manager, hdrop, rfl⟩ := drop_some hu
  have hlinked := h.linked
  have hmoved : Inv pools { s with streamParametersBuffer := none } s.streamParametersBuffer
      owners := by
    refine h.exchange { s with streamParametersBuffer := none } .streamParameters _ rfl rfl
      rfl ?_ ⟨hlinked.entries, (fun hb => nomatch hb), hlinked.frames, hlinked.pending⟩
    intro p hp hpq
    cases p with
    | hand => exact absurd rfl hp
    | streamParameters => exact absurd rfl hpq
    | _ => rfl
  obtain ⟨owners', hdropped⟩ := hmoved.dropHand hdrop
  split at ht
  · obtain ⟨rfl, rfl⟩ := Prod.mk.inj ht
    exact ⟨rfl, rfl, owners', hdropped⟩
  · next b manager' hget =>
    obtain ⟨rfl, rfl⟩ := Prod.mk.inj ht
    obtain ⟨-, hinv, hfresh, hunheld⟩ := hdropped.getBuffer hget
    have hlinked' := hinv.linked
    exact ⟨rfl, rfl, rfl, rfl, ⟨_, hinv.owned, hinv.places,
      ⟨hlinked'.entries, (fun hb => nomatch hb), hlinked'.frames, hlinked'.pending⟩⟩, hfresh, hunheld⟩

theorem Inv.fill (h : Inv pools s hand owners) (hnone : s.streamParametersBuffer = none)
    (hunheld : ∀ c, ¬ s.sets.manager.Holds c b) (pointers : SetPointers n) :
    Inv pools { s with streamParametersIn := Function.update s.streamParametersIn b pointers } hand
      owners := by
  have hlinked := h.linked
  refine ⟨h.owned, h.places, ⟨hlinked.entries, (fun hb => nomatch hnone.symm.trans hb),
    fun {f} hf => ?_, hlinked.pending⟩⟩
  obtain ⟨hholds, ⟨p, q, hpointers, hfilled⟩, hsame⟩ := hlinked.frames hf
  have hne : f.streamParameters ≠ b := by
    intro heq
    exact hunheld _ (heq ▸ hholds)
  have hupdate : Function.update s.streamParametersIn b pointers f.streamParameters
      = s.streamParametersIn f.streamParameters := Function.update_of_ne hne ..
  exact ⟨hholds, ⟨p, q, hupdate.trans hpointers, hfilled⟩, hupdate.trans hsame⟩

theorem Inv.prepareNewStreamParameters (h : Inv pools s none owners) {slice : CurrentSlice n}
    (htable : s.sets.pictureParameterSetTable slice.picParameterSetId = some slice.sets)
    {prepared : Bool} (ht : s.prepareNewStreamParameters pools slice = some (prepared, t)) :
    (∃ owners', Inv pools t none owners') ∧ t.frameToDecode = s.frameToDecode ∧
      (prepared = true →
        ∃ b, t.streamParameters = some b ∧ t.streamParametersIn b = slice.sets.pointers) := by
  obtain ⟨⟨got, u⟩, hu, ht⟩ := Option.bind_eq_some_iff.mp ht
  obtain ⟨hframe, htables, hgot⟩ := h.getNewStreamParameters hu
  cases got with
  | none =>
    obtain ⟨rfl, rfl⟩ := Prod.mk.inj (Option.some.inj ht)
    exact ⟨hgot, hframe, fun hp => nomatch hp⟩
  | some b =>
    obtain ⟨entry, hentry, ht⟩ := Option.bind_eq_some_iff.mp ht
    obtain ⟨rfl, rfl⟩ := Prod.mk.inj (Option.some.inj ht)
    obtain ⟨hbuffer, hpointer, ⟨owners', hinv⟩, hfresh, hunheld⟩ := hgot
    have hentry : u.sets.pictureParameterSetTable slice.picParameterSetId = some entry := hentry
    have hsets : u.sets.pictureParameterSetTable slice.picParameterSetId = some slice.sets := by
      rw [htables]
      exact htable
    obtain rfl : entry = slice.sets := Option.some.inj (hentry.symm.trans hsets)
    have hfilled := hinv.fill rfl hunheld slice.sets.pointers
    have hplace : (u.sets.pictureParameterSetTable slice.picParameterSetId).map (·.buffer)
        = some slice.sets.buffer := by
      rw [hsets]
      rfl
    obtain ⟨hattached, hholds, -, -⟩ := hfilled.attachHand (q := .picture slice.picParameterSetId) hplace
      (by simp) (by simp) hunheld
    have hlinked := hattached.linked
    refine ⟨⟨_, hattached.exchange
      (({ u with streamParametersIn := Function.update u.streamParametersIn b slice.sets.pointers } :
        Parser n m).attach pools b slice.sets.buffer) .streamParameters none rfl
      rfl hbuffer ?_ ⟨hlinked.entries, fun {c} hc => ?_, hlinked.frames, hlinked.pending⟩⟩, hframe,
      fun _ => ⟨b, hpointer, Function.update_self ..⟩⟩
    · intro p hp hpq
      cases p with
      | hand => exact absurd rfl hp
      | streamParameters => exact absurd rfl hpq
      | _ => rfl
    · obtain rfl : b = c := Option.some.inj (hbuffer.symm.trans hc)
      exact ⟨hpointer, _, _, Function.update_self .., hholds hfresh.slots, hlinked.entries hsets⟩

theorem Inv.claimParameters (h : Inv pools s none owners) (hframe : s.frameToDecode = false)
    {slice : CurrentSlice n}
    (hpointers : ∃ b, s.streamParameters = some b ∧ s.streamParametersIn b = slice.sets.pointers)
    (ht : s.claimParameters pools slice = some t) : ∃ owners', Inv pools t none owners' := by
  obtain ⟨b, hb, ht⟩ := Option.bind_eq_some_iff.mp ht
  obtain ⟨stream, hstream, ht⟩ := Option.bind_eq_some_iff.mp ht
  obtain ⟨frame, hframeBuffer, ht⟩ := Option.bind_eq_some_iff.mp ht
  obtain ⟨stream', hstream', ht⟩ := Option.bind_eq_some_iff.mp ht
  obtain rfl := Option.some.inj ht
  obtain rfl : stream = stream' :=
    Option.some.inj ((h.linked.current hstream).1.symm.trans hstream')
  obtain ⟨_, hsame, hpointers⟩ := hpointers
  obtain rfl := Option.some.inj (hstream'.symm.trans hsame)
  have hpending : s.pending = some b := (if_neg (by simp [hframe])).trans hb
  obtain ⟨hholds, hunheld⟩ := h.linked.pending hpending
  have hlinked := h.linked
  -- the frame is in no place while its parameters are attached
  have hmoved : Inv pools { s with frameToDecode := true } (some b) owners := by
    refine h.exchange { s with frameToDecode := true } .pending _ rfl hpending.symm rfl ?_
      ⟨hlinked.entries, hlinked.current, hlinked.frames, fun hb => nomatch hb⟩
    intro p hp hpq
    cases p with
    | hand => exact absurd rfl hp
    | pending => exact absurd rfl hpq
    | _ => rfl
  obtain ⟨hone, hstreamHeld, hunheld₁, -⟩ := hmoved.attachHand (q := .streamParameters) hstream
    (by simp) (by simp) hunheld
  obtain ⟨htwo, -, -, hkeep⟩ := hone.attachHand (q := .frameParameters) hframeBuffer (by simp)
    (by simp) hunheld₁
  have hslots : ∀ i, s.sets.manager.slot b i = none := by
    intro i
    cases hslot : s.sets.manager.slot b i with
    | none => rfl
    | some c => exact absurd ⟨i, hslot⟩ (hholds c)
  have hlinked₂ := htwo.linked
  refine ⟨_, htwo.exchange { (s.attach pools b stream).attach pools b frame with
      frameToDecode := true
      frames := s.frames ++ [⟨b, stream, slice.sets⟩] } (.frame s.frames.length) none
    rfl ?_ ?_ ?_
    ⟨hlinked₂.entries, hlinked₂.current, fun {f} hf => ?_, fun hb => nomatch hb⟩⟩
  · show none = (s.frames[s.frames.length]?).map _
    rw [List.getElem?_eq_none (Nat.le_refl _)]
    rfl
  · show ((s.frames ++ [_])[s.frames.length]?).map _ = _
    rw [List.getElem?_concat_length]
    rfl
  · intro p hp hpq
    cases p with
    | hand => exact absurd rfl hp
    | frame i =>
      show ((s.frames ++ [_])[i]?).map _ = (s.frames[i]?).map _
      have hne : i ≠ s.frames.length := fun hi => hpq (by rw [hi])
      rcases Nat.lt_or_gt_of_ne hne with hlt | hgt
      · rw [List.getElem?_append_left hlt]
      · rw [List.getElem?_eq_none (Nat.le_of_lt hgt), List.getElem?_eq_none]
        rw [List.length_append, List.length_singleton]
        exact hgt
    | _ => rfl
  · rcases List.mem_append.mp hf with hold | hnew
    · exact hlinked₂.frames hold
    · obtain rfl := List.mem_singleton.mp hnew
      exact ⟨hkeep _ (hstreamHeld hslots), (hlinked₂.current hstream).2, hpointers⟩

theorem Inv.checked (h : Inv pools s none owners) (new : Bool)
    (sets : PictureEntry n) : Inv pools { s with
      readNewSPS := false
      readNewSPSExtension := false
      readNewPPS := false
      copyOfSequenceParameterSet :=
        if new then sets.header.sequenceParameterSet else s.copyOfSequenceParameterSet
      copyOfSequenceParameterSetExtension :=
        if new then s.extension sets.sequenceBuffer else s.copyOfSequenceParameterSetExtension
      copyOfPictureParameterSet := if new then sets.image else s.copyOfPictureParameterSet } none
    owners := by
  have hlinked := h.linked
  exact ⟨h.owned, h.places,
    ⟨hlinked.entries, hlinked.current, hlinked.frames, hlinked.pending⟩⟩

theorem Inv.newStreamParametersCheck (h : Inv pools s none owners) {slice : CurrentSlice n}
    (hsettled : s.Settled slice) {new : Bool}
    (ht : s.newStreamParametersCheck slice.sets = (new, t)) :
    Inv pools t none owners ∧ t.frameToDecode = s.frameToDecode ∧
      if new then t.sets.pictureParameterSetTable slice.picParameterSetId = some slice.sets
      else ∃ b, t.streamParameters = some b ∧ t.streamParametersIn b = slice.sets.pointers := by
  unfold Parser.newStreamParametersCheck at ht
  unfold Settled at hsettled
  split at ht
  · next hnone =>
    obtain ⟨rfl, rfl⟩ := Prod.mk.inj ht
    rw [if_pos (by unfold differs; rw [hnone])] at hsettled
    exact ⟨h, rfl, hsettled⟩
  · next b hstream =>
    dsimp only at ht
    split at ht
    · next hdiffers =>
      obtain ⟨rfl, rfl⟩ := Prod.mk.inj ht
      rw [if_pos hdiffers] at hsettled
      exact ⟨h.checked true slice.sets, rfl, hsettled⟩
    · next hdiffers =>
      obtain ⟨rfl, rfl⟩ := Prod.mk.inj ht
      rw [if_neg hdiffers] at hsettled
      obtain ⟨_, hsame, hpointers⟩ := hsettled
      obtain rfl := Option.some.inj (hstream.symm.trans hsame)
      -- the structure is written as it was
      have hwritten : Function.update s.streamParametersIn b slice.sets.pointers
          = s.streamParametersIn := by
        rw [← hpointers, Function.update_eq_self]
      rw [hwritten]
      exact ⟨h.checked false slice.sets, rfl, b, hstream, hpointers⟩

theorem Inv.commitFrameForDecode (h : Inv pools s none owners) (hframe : s.frameToDecode = false)
    {slice : CurrentSlice n} (hsettled : s.Settled slice) {nal : SliceNal}
    (ht : s.commitFrameForDecode pools nal slice = some t) : ∃ owners', Inv pools t none owners' := by
  unfold Parser.commitFrameForDecode at ht
  cases hcheck : s.newStreamParametersCheck slice.sets with
  | mk new u =>
    rw [hcheck] at ht
    obtain ⟨hinv, hframe', hready⟩ := h.newStreamParametersCheck hsettled hcheck
    have hthen : ∃ prepared v,
        (if new then u.prepareNewStreamParameters pools slice else some (true, u))
          = some (prepared, v) ∧
        (if prepared && nal.supported then v.claimParameters pools slice else some v) = some t := by
      cases new with
      | true =>
        obtain ⟨⟨prepared, v⟩, hv, ht⟩ := Option.bind_eq_some_iff.mp ht
        exact ⟨prepared, v, hv, ht⟩
      | false => exact ⟨true, u, rfl, ht⟩
    obtain ⟨prepared, v, hv, ht⟩ := hthen
    have hprepared : (∃ owners', Inv pools v none owners') ∧ v.frameToDecode = u.frameToDecode ∧
        (prepared = true →
          ∃ b, v.streamParameters = some b ∧ v.streamParametersIn b = slice.sets.pointers) := by
      cases new with
      | true => exact hinv.prepareNewStreamParameters hready hv
      | false =>
        obtain ⟨rfl, rfl⟩ := Prod.mk.inj (Option.some.inj hv)
        exact ⟨⟨owners, hinv⟩, rfl, fun _ => hready⟩
    obtain ⟨⟨owners', hinv'⟩, hframe'', hpointers⟩ := hprepared
    split at ht
    · next hclaim =>
      obtain ⟨hp, -⟩ := (Bool.and_eq_true _ _).mp hclaim
      exact hinv'.claimParameters (hframe''.trans (hframe'.trans hframe)) (hpointers hp) ht
    · obtain rfl := Option.some.inj ht
      exact ⟨owners', hinv'⟩

/-! ## Steps and runs -/

/-- A slice that is committed has its sets settled. -/
def Ok (s : Parser n m) : ParserEvent σ → Prop
  | .slice nal => s.frameToDecode = false → ∀ slice, s.headerFor nal = some slice → s.Settled slice
  | _ => True

omit [BitSource σ] in
theorem Inv.slice (h : Inv pools s none owners) {nal : SliceNal}
    (hok : s.Ok (σ := σ) (.slice nal)) (ht : s.slice pools nal = some t) :
    ∃ owners', Inv pools t none owners' := by
  obtain ⟨⟨read, u⟩, hu, ht⟩ := Option.bind_eq_some_iff.mp ht
  obtain ⟨⟨owners', hinv⟩, hframe, hheader⟩ := h.readNalSliceHeader hu
  dsimp only at ht
  split at ht
  · next slice hslice =>
    split at ht
    · next hcommit =>
      obtain ⟨hread, hnot⟩ := (Bool.and_eq_true _ _).mp hcommit
      have hnot : u.frameToDecode = false := by simpa using hnot
      obtain ⟨hfor, hsettled⟩ := hheader slice hread hslice
      exact hinv.commitFrameForDecode hnot (hsettled (hok (hframe.symm.trans hnot) slice hfor)) ht
    · obtain rfl := Option.some.inj ht
      exact ⟨owners', hinv⟩
  · obtain rfl := Option.some.inj ht
    exact ⟨owners', hinv⟩

theorem Inv.step (h : Inv pools s none owners) {e : ParserEvent σ} (hok : s.Ok e)
    (ht : s.step pools e = some t) : ∃ owners', Inv pools t none owners' := by
  cases e with
  | input => exact h.input ht
  | sequenceParameterSet bits => exact h.sequenceParameterSet ht
  | sequenceParameterSetExtension id header =>
    obtain rfl := Option.some.inj ht
    have hlinked := h.linked
    exact ⟨owners, h.owned, h.places,
      ⟨hlinked.entries, hlinked.current, hlinked.frames, hlinked.pending⟩⟩
  | pictureParameterSet bits => exact h.pictureParameterSet ht
  | slice nal => exact h.slice hok ht
  | finish => exact h.finish ht
  | release k => exact h.release ht

theorem Inv.created (pools : ParserPools n m) (members : SetMembers)
    (sps : SequenceParameterSetHeader) (extension : SequenceParameterSetExtensionHeader)
    (pps : PictureImage n) : Inv pools (created pools members sps extension pps) none ∅ := by
  refine ⟨⟨?_, pools.few⟩, ⟨fun {p b} hp => ?_, fun {p q b} hp => ?_⟩,
    ⟨(fun hi => nomatch hi), (fun hb => nomatch hb), (fun hf => nomatch hf),
      (fun hb => nomatch hb)⟩⟩
  · exact Run.Inv.created pools.poolOf
  · cases p <;> exact nomatch hp
  · cases p <;> exact nomatch hp

/-- The parameter set buffers that the `StreamParameters` and the slice header of
a frame point to. -/
def pointedTo (s : Parser n m) (f : Frame n) : List (Fin n) :=
  let p := s.streamParametersIn f.streamParameters
  p.sequence.toList ++ p.picture.toList ++ [f.sliceHeader.sequenceBuffer, f.sliceHeader.buffer]

/-- Every one of them is attached to what the frame has attached, has a reference,
and is in no ring of free buffers. -/
def SetsHeld (s : Parser n m) : Prop :=
  ∀ f ∈ s.frames, ∀ b ∈ s.pointedTo f,
    Relation.ReflTransGen s.sets.manager.Holds f.buffer b ∧
    (s.sets.manager.buffers b).referenceCount ≠ 0 ∧
    ∀ p, b ∉ (s.sets.manager.pools p).freeBuffer.entries

theorem Inv.setsHeld (h : Inv pools s none owners) : s.SetsHeld := by
  intro f hf b hb
  obtain ⟨hholds, ⟨p, q, hpointers, hpicture, hsequence⟩, hsame⟩ := h.linked.frames hf
  obtain ⟨hheader, hheader'⟩ := SetPointers.mk.inj (hsame.symm.trans hpointers)
  have hset : b = q ∨ b = p := by
    unfold pointedTo at hb
    rw [hpointers] at hb
    simp only [Option.toList_some, List.cons_append, List.nil_append, List.mem_cons,
      List.not_mem_nil, or_false] at hb
    rw [Option.some.inj hheader, Option.some.inj hheader'] at hb
    rcases hb with hb | hb | hb | hb
    exacts [.inl hb, .inr hb, .inl hb, .inr hb]
  have hpath : Relation.ReflTransGen s.sets.manager.Holds f.buffer b := by
    have htoPicture := (Relation.ReflTransGen.single hholds).tail hpicture
    rcases hset with rfl | rfl
    · exact htoPicture.tail hsequence
    · exact htoPicture
  have howned : f.buffer ∈ owners := by
    obtain ⟨k, hk⟩ := List.getElem?_of_mem hf
    refine h.places.mem (p := .frame k) ?_
    show (s.frames[k]?).map _ = _
    rw [hk]
    rfl
  have hlive := h.owned.live_of_reached howned hpath
  exact ⟨hpath, hlive, fun r hr => hlive (h.owned.free hr).2.2.2⟩

/-- In a run where the sets are settled, frames hold what they point to. -/
theorem setsHeld_of_admits (pools : ParserPools n m) (members : SetMembers)
    (sps : SequenceParameterSetHeader) (extension : SequenceParameterSetExtensionHeader)
    (pps : PictureImage n) {events : List (ParserEvent σ)}
    (hok : Admits (step pools) Ok (created pools members sps extension pps) events)
    (ht : run (step pools) (created pools members sps extension pps) events = some t) :
    t.SetsHeld := by
  have hinv : ∃ owners, Inv pools t none owners :=
    run_inv_of_admits (P := fun s => ∃ owners, Inv pools s none owners)
      (fun hok hstep ⟨_, h⟩ => h.step hok hstep) hok ht
      ⟨∅, Inv.created pools members sps extension pps⟩
  obtain ⟨owners, hinv⟩ := hinv
  exact hinv.setsHeld

instance (s : Parser n m) (slice : CurrentSlice n) : Decidable (s.Settled slice) :=
  inferInstanceAs (Decidable (if s.differs slice.sets then
    s.sets.pictureParameterSetTable slice.picParameterSetId = some slice.sets
  else ∃ b, s.streamParameters = some b ∧ s.streamParametersIn b = slice.sets.pointers))

instance (s : Parser n m) : ∀ e : ParserEvent σ, Decidable (s.Ok e)
  | .slice nal => inferInstanceAs (Decidable
      (s.frameToDecode = false → ∀ slice, s.headerFor nal = some slice → s.Settled slice))
  | .input => inferInstanceAs (Decidable True)
  | .sequenceParameterSet _ => inferInstanceAs (Decidable True)
  | .sequenceParameterSetExtension _ _ => inferInstanceAs (Decidable True)
  | .pictureParameterSet _ => inferInstanceAs (Decidable True)
  | .finish => inferInstanceAs (Decidable True)
  | .release _ => inferInstanceAs (Decidable True)

/-! ## A set that is sent again -/

/-- One buffer for sequence parameter sets, three for picture parameter sets. -/
def fivePools : ParserPools 12 5 where
  poolOf := #v[0, 1, 1, 1, 2, 2, 3, 3, 3, 4, 4, 4].get
  sequenceParameterSetPool := 0
  pictureParameterSetPool := 1
  streamParametersPool := 2
  frameParametersPool := 3
  codedFramePool := 4
  few := by decide

/-- `profile_idc` 66, `level_idc` 30, one reference, and a picture of one macroblock. -/
def spsBits : BitList :=
  ⟨[0, 1, 0, 0, 0, 0, 1, 0, 0, 0, 0, 0, 0, 0, 0, 0, 0, 0, 0, 1, 1, 1, 1, 0,
    1, 1, 0, 1, 1, 0, 1, 0, 0, 1, 1, 1, 1, 0, 0, 1].map (· == 1)⟩

/-- A set with one active reference in either list, and the trailing bits. -/
def ppsBits : BitList :=
  ⟨[1, 1, 0, 0, 1, 1, 1, 0, 0, 0, 1, 1, 1, 0, 0, 0, 1, 0, 0, 0, 0, 0, 0, 0].map (· == 1)⟩

/-- The one slice of a picture. -/
def wholePicture : List (ParserEvent BitList) :=
  [.input, .slice ⟨true, some 0, true, true, true⟩, .finish]

/-- The frame keeps its set when the table has another. -/
theorem setsHeld_set_replaced :
    ∃ t, run (step fivePools) (created fivePools default default default default)
        ([.sequenceParameterSet spsBits, .pictureParameterSet ppsBits] ++ wholePicture
          ++ [.pictureParameterSet ppsBits]) = some t ∧
      t.frames.length = 1 ∧ t.SetsHeld := by
  have hok : Admits (step fivePools) Ok (created fivePools default default default default)
      ([.sequenceParameterSet spsBits, .pictureParameterSet ppsBits] ++ wholePicture
        ++ [.pictureParameterSet ppsBits]) := by decide +kernel
  have hframes : (run (step fivePools) (created fivePools default default default default)
      ([.sequenceParameterSet spsBits, .pictureParameterSet ppsBits] ++ wholePicture
        ++ [.pictureParameterSet ppsBits])).map (·.frames.length) = some 1 := by decide +kernel
  obtain ⟨t, ht, hlength⟩ := Option.map_eq_some_iff.mp hframes
  exact ⟨t, ht, hlength, setsHeld_of_admits fivePools default default default default hok ht⟩

/-- A picture parameter set is sent again unchanged, a frame is queued, and it is
sent once more: the frame's set has no reference. -/
theorem setsHeld_set_sent_again :
    ¬ ∀ (events : List (ParserEvent BitList)) (t : Parser 12 5),
      run (step fivePools) (created fivePools default default default default) events = some t →
        t.SetsHeld := by
  intro h
  have hrun : (run (step fivePools) (created fivePools default default default default)
      ([.sequenceParameterSet spsBits, .pictureParameterSet ppsBits]
        ++ wholePicture ++ wholePicture ++ [.pictureParameterSet ppsBits]
        ++ wholePicture ++ [.pictureParameterSet ppsBits])).map
      (fun t => decide (∃ f ∈ t.frames, ∃ b ∈ t.pointedTo f,
        (t.sets.manager.buffers b).referenceCount = 0)) = some true := by decide +kernel
  obtain ⟨t, ht, hfree⟩ := Option.map_eq_some_iff.mp hrun
  obtain ⟨f, hf, b, hb, hzero⟩ := of_decide_eq_true hfree
  exact (h _ t ht f hf b hb).2.1 hzero

end Parser

end Duckbox.H264.Coded
