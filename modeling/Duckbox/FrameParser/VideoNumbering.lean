import Duckbox.FrameParser.Video

/-!
# Forward display numbering

What the log of a run says about the pictures it parsed. `Ledger pics held s`
is the account: the labels carry `0, 1, 2, …`; every frame or first field of
`pics` was labelled once or is among the `held` frames, never both; every
reference picture's buffer was taken once, and dropped once unless held. The
account is kept per picture (`List.count`), so it does not care in which order
the two deferred slots, or a frame on its way to one, are listed.

> `Ledger.release`: numbering a held frame and dropping its reference moves it
> from one side of the account to the other.

Purge, processing and the deferral are made of that one move, so the slots of
the parser are the held frames after every input (`Video.runInputs_inv`). The
order in which indices are given is read off separately: a reference frame
stays in its slot across non-reference pictures (`Video.foldl_nonReference`), each
of which takes the next index.
-/

namespace Duckbox.FrameParser

/-! ## Reading the log -/

/-- The labels written, as (frame, display frame index), oldest first. -/
def labels (log : List Effect) : List (Nat × Nat) :=
  log.filterMap fun
    | .labelled frame index _ _ => some (frame, index)
    | _ => none

/-- The frames whose buffers were referenced. -/
def taken (log : List Effect) : List Nat :=
  log.filterMap fun
    | .incrementReferenceCount frame => some frame
    | _ => none

/-- The frames whose buffers were dropped. -/
def dropped (log : List Effect) : List Nat :=
  log.filterMap fun
    | .decrementReferenceCount frame => some frame
    | _ => none

/-- The display frame indices given to a frame. -/
def indicesOf (log : List Effect) (frame : Nat) : List Nat :=
  ((labels log).filter (·.1 == frame)).map (·.2)

theorem labels_append (l m : List Effect) : labels (l ++ m) = labels l ++ labels m :=
  List.filterMap_append

theorem taken_append (l m : List Effect) : taken (l ++ m) = taken l ++ taken m :=
  List.filterMap_append

theorem dropped_append (l m : List Effect) : dropped (l ++ m) = dropped l ++ dropped m :=
  List.filterMap_append

theorem length_indicesOf (log : List Effect) (frame : Nat) :
    (indicesOf log frame).length = ((labels log).map (·.1)).count frame := by
  unfold indicesOf
  rw [List.length_map, ← List.countP_eq_length_filter, List.count, List.countP_map]
  rfl

/-! ## The account -/

/-- The frames in the two deferred slots. -/
def Video.held (s : Video) : List CodedFrame :=
  s.deferred.toList ++ s.deferredSecondField.toList

/-- `frame` waits in a deferred slot. -/
def Video.holds (s : Video) (frame : Nat) : Prop :=
  ∃ f ∈ s.held, f.decodeFrameIndex = frame

/-- The account of the pictures `pics` parsed so far with the frames `held`. -/
structure Ledger (pics : List Picture) (held : List CodedFrame) (s : Video) : Prop where
  indices : (labels s.log).map (·.2) = List.range s.nextDisplayFrameIndex
  held_at : ∀ f ∈ held, pics[f.decodeFrameIndex]? = some f.picture
  labelled : ∀ k, ((labels s.log).map (·.1)).count k
    + ((held.filter (·.picture.firstDecodeOfFrame)).map (·.decodeFrameIndex)).count k
    = if pics[k]?.any (·.firstDecodeOfFrame) then 1 else 0
  taken : ∀ k, (taken s.log).count k = if pics[k]?.any (·.referenceFrame) then 1 else 0
  balance : ∀ k, (FrameParser.taken s.log).count k
    = (dropped s.log).count k + (held.map (·.decodeFrameIndex)).count k

variable {pics : List Picture} {held held' : List CodedFrame} {s : Video} {f : CodedFrame}
  {p : Picture}

theorem Ledger.perm (h : Ledger pics held s) (hp : held.Perm held') : Ledger pics held' s := by
  refine { h with held_at := ?_, labelled := ?_, balance := ?_ }
  · exact fun f hf => h.held_at f (hp.mem_iff.mpr hf)
  · intro k
    rw [← h.labelled k, ((hp.filter _).map _).count_eq]
  · intro k
    rw [h.balance k, (hp.map _).count_eq]

theorem Ledger.congr {s' : Video} (h : Ledger pics held s) (hlog : s'.log = s.log)
    (hnext : s'.nextDisplayFrameIndex = s.nextDisplayFrameIndex) : Ledger pics held s' := by
  constructor
  · rw [hlog, hnext]; exact h.indices
  · exact h.held_at
  · rw [hlog]; exact h.labelled
  · rw [hlog]; exact h.taken
  · rw [hlog]; exact h.balance

theorem calculate_eq (s : Video) (f : CodedFrame) : ∃ nextFieldIndex fieldIndex collapse,
    s.calculateFrameIndexAndPts f =
      { s with
        nextDisplayFieldIndex := nextFieldIndex
        nextDisplayFrameIndex :=
          s.nextDisplayFrameIndex + if f.picture.firstDecodeOfFrame then 1 else 0
        collapseHolesInDisplayIndices := collapse
        log := s.log ++ if f.picture.firstDecodeOfFrame
          then [.labelled f.decodeFrameIndex s.nextDisplayFrameIndex fieldIndex
            s.collapseHolesInDisplayIndices]
          else [] } := by
  unfold Video.calculateFrameIndexAndPts
  dsimp only
  cases f.picture.firstDecodeOfFrame with
  | false =>
    simp only [Bool.not_false, if_true, Bool.false_eq_true, if_false, List.append_nil]
    exact ⟨_, s.nextDisplayFieldIndex, _, rfl⟩
  | true => exact ⟨_, _, _, rfl⟩

theorem labels_calculate (s : Video) (f : CodedFrame) :
    labels (s.calculateFrameIndexAndPts f).log = labels s.log
      ++ (if f.picture.firstDecodeOfFrame
          then [(f.decodeFrameIndex, s.nextDisplayFrameIndex)] else []) := by
  obtain ⟨_, _, _, heq⟩ := calculate_eq s f
  rw [heq]
  split <;> simp [labels]

theorem taken_calculate (s : Video) (f : CodedFrame) :
    taken (s.calculateFrameIndexAndPts f).log = taken s.log := by
  obtain ⟨_, _, _, heq⟩ := calculate_eq s f
  rw [heq]
  split <;> simp [taken]

theorem dropped_calculate (s : Video) (f : CodedFrame) :
    dropped (s.calculateFrameIndexAndPts f).log = dropped s.log := by
  obtain ⟨_, _, _, heq⟩ := calculate_eq s f
  rw [heq]
  split <;> simp [dropped]

theorem next_calculate (s : Video) (f : CodedFrame) :
    (s.calculateFrameIndexAndPts f).nextDisplayFrameIndex
      = s.nextDisplayFrameIndex + (if f.picture.firstDecodeOfFrame then 1 else 0) := by
  obtain ⟨_, _, _, heq⟩ := calculate_eq s f
  rw [heq]

theorem calculate_frame (s : Video) (f : CodedFrame) :
    (s.calculateFrameIndexAndPts f).deferred = s.deferred ∧
    (s.calculateFrameIndexAndPts f).deferredSecondField = s.deferredSecondField ∧
    (s.calculateFrameIndexAndPts f).nextDecodeFrameIndex = s.nextDecodeFrameIndex := by
  obtain ⟨_, _, _, heq⟩ := calculate_eq s f
  rw [heq]
  exact ⟨rfl, rfl, rfl⟩

theorem indices_calculate
    (h : (labels s.log).map (·.2) = List.range s.nextDisplayFrameIndex) (f : CodedFrame) :
    (labels (s.calculateFrameIndexAndPts f).log).map (·.2)
      = List.range (s.calculateFrameIndexAndPts f).nextDisplayFrameIndex := by
  rw [labels_calculate, next_calculate, List.map_append, h]
  cases f.picture.firstDecodeOfFrame with
  | false => simp
  | true => simp [List.range_succ]

theorem Ledger.release (h : Ledger pics (f :: held) s) : Ledger pics held (s.release f) := by
  have hlog : (s.release f).log = (s.calculateFrameIndexAndPts f).log
      ++ [.decrementReferenceCount f.decodeFrameIndex] := rfl
  have hlabels : labels (s.release f).log = labels (s.calculateFrameIndexAndPts f).log := by
    rw [hlog, labels_append]
    simp [labels]
  have htaken : FrameParser.taken (s.release f).log = FrameParser.taken s.log := by
    rw [hlog, taken_append, taken_calculate]
    simp [FrameParser.taken]
  have hdropped : dropped (s.release f).log = dropped s.log ++ [f.decodeFrameIndex] := by
    rw [hlog, dropped_append, dropped_calculate]
    simp [dropped]
  constructor
  case indices =>
    rw [hlabels]
    exact indices_calculate h.indices f
  case held_at => exact fun g hg => h.held_at g (List.mem_cons_of_mem _ hg)
  case labelled =>
    intro k
    have hold := h.labelled k
    rw [hlabels, labels_calculate, ← hold]
    cases hfirst : f.picture.firstDecodeOfFrame with
    | false => simp [hfirst]
    | true =>
      simp only [List.filter_cons, hfirst, if_true, List.map_append, List.map_cons, List.map_nil,
        List.count_append, List.count_cons, List.count_nil]
      omega
  case taken =>
    rw [htaken]
    exact h.taken
  case balance =>
    intro k
    have hold := h.balance k
    rw [htaken, hdropped, hold]
    simp only [List.map_cons, List.count_append, List.count_cons, List.count_nil]
    omega

private theorem any_snoc (q : Picture → Bool) (pics : List Picture) (p : Picture) (k : Nat) :
    (if (pics ++ [p])[k]?.any q then 1 else 0)
      = (if pics[k]?.any q then 1 else 0)
        + (if q p = true then (if pics.length = k then 1 else 0) else 0) := by
  rcases Nat.lt_trichotomy k pics.length with hlt | heq | hgt
  · rw [List.getElem?_append_left hlt, if_neg (Nat.ne_of_gt hlt)]
    simp
  · subst heq
    simp
  · have h1 : (pics ++ [p])[k]? = none := List.getElem?_eq_none (by simp; omega)
    have h2 : pics[k]? = none := List.getElem?_eq_none (Nat.le_of_lt hgt)
    rw [h1, h2, if_neg (Nat.ne_of_lt hgt)]
    simp

private theorem held_at_snoc (h : Ledger pics held s) (p : Picture) :
    ∀ g ∈ held, (pics ++ [p])[g.decodeFrameIndex]? = some g.picture := by
  intro g hg
  have hat := h.held_at g hg
  rw [List.getElem?_append_left (List.getElem?_eq_some_iff.mp hat).1]
  exact hat

theorem Ledger.nonReference (h : Ledger pics held s) (hp : p.referenceFrame = false) :
    Ledger (pics ++ [p]) held (s.calculateFrameIndexAndPts ⟨pics.length, p⟩) := by
  constructor
  case indices => exact indices_calculate h.indices _
  case held_at => exact held_at_snoc h p
  case labelled =>
    intro k
    have hold := h.labelled k
    rw [any_snoc, labels_calculate, ← hold]
    cases hfirst : p.firstDecodeOfFrame with
    | false => simp
    | true =>
      simp only [if_true, List.map_append, List.map_cons, List.map_nil, List.count_append,
        List.count_cons, List.count_nil, beq_iff_eq]
      omega
  case taken =>
    intro k
    rw [any_snoc, taken_calculate, h.taken k, hp]
    simp
  case balance =>
    intro k
    rw [taken_calculate, dropped_calculate]
    exact h.balance k

theorem Ledger.reference (h : Ledger pics held s) (hp : p.referenceFrame = true) :
    Ledger (pics ++ [p]) (⟨pics.length, p⟩ :: held)
      (s.record (.incrementReferenceCount pics.length)) := by
  have hlog : (s.record (.incrementReferenceCount pics.length)).log
      = s.log ++ [.incrementReferenceCount pics.length] := rfl
  have hlabels : labels (s.record (.incrementReferenceCount pics.length)).log
      = labels s.log := by
    rw [hlog, labels_append]
    simp [labels]
  have htaken : FrameParser.taken (s.record (.incrementReferenceCount pics.length)).log
      = FrameParser.taken s.log ++ [pics.length] := by
    rw [hlog, taken_append]
    simp [FrameParser.taken]
  have hdropped : dropped (s.record (.incrementReferenceCount pics.length)).log
      = dropped s.log := by
    rw [hlog, dropped_append]
    simp [dropped]
  constructor
  case indices =>
    rw [hlabels]
    exact h.indices
  case held_at =>
    intro g hg
    rcases List.mem_cons.mp hg with rfl | hg
    · simp
    · exact held_at_snoc h p g hg
  case labelled =>
    intro k
    have hold := h.labelled k
    rw [any_snoc, hlabels, ← hold]
    cases hfirst : p.firstDecodeOfFrame with
    | false => simp [hfirst]
    | true =>
      simp only [List.filter_cons, hfirst, if_true, List.map_cons, List.count_cons, beq_iff_eq]
      omega
  case taken =>
    intro k
    rw [any_snoc, htaken, List.count_append, h.taken k, hp]
    simp [List.count_cons]
  case balance =>
    intro k
    have hold := h.balance k
    rw [htaken, hdropped, List.count_append, hold]
    simp only [List.map_cons, List.count_cons, List.count_nil]
    omega

/-! ## The slots hold the frames -/

/-- What holds of the parser after the pictures `pics`. -/
structure Inv (pics : List Picture) (s : Video) : Prop where
  ledger : Ledger pics s.held s
  slots : s.deferred = none → s.deferredSecondField = none
  decoded : s.nextDecodeFrameIndex = pics.length

theorem Video.release_nextDecodeFrameIndex (s : Video) (f : CodedFrame) :
    (s.release f).nextDecodeFrameIndex = s.nextDecodeFrameIndex :=
  (calculate_frame s f).2.2

theorem Video.release_deferredSecondField (s : Video) (f : CodedFrame) :
    (s.release f).deferredSecondField = s.deferredSecondField :=
  (calculate_frame s f).2.1

theorem Ledger.purge {extra : List CodedFrame} (h : Ledger pics (s.held ++ extra) s)
    (hslots : s.deferred = none → s.deferredSecondField = none) :
    Ledger pics extra s.forPlayPurgeQueued ∧ s.forPlayPurgeQueued.deferred = none ∧
      s.forPlayPurgeQueued.deferredSecondField = none ∧
      s.forPlayPurgeQueued.nextDecodeFrameIndex = s.nextDecodeFrameIndex := by
  unfold Video.held at h
  unfold Video.forPlayPurgeQueued
  cases hd : s.deferred with
  | none =>
    have hs := hslots hd
    rw [hd, hs] at h
    exact ⟨h, hd, hs, rfl⟩
  | some f =>
    rw [hd] at h
    have h1 : Ledger pics (s.deferredSecondField.toList ++ extra) (s.release f) := by
      refine Ledger.release (f := f) ?_
      simpa using h
    have hsecond := s.release_deferredSecondField f
    have hnext := s.release_nextDecodeFrameIndex f
    simp only [hsecond]
    cases hs : s.deferredSecondField with
    | none =>
      rw [hs] at h1
      exact ⟨Ledger.congr h1 rfl rfl, trivial, trivial, hnext⟩
    | some g =>
      rw [hs] at h1
      have h2 : Ledger pics extra ((s.release f).release g) := Ledger.release (f := g) (by
        simpa using h1)
      exact ⟨Ledger.congr h2 rfl rfl, trivial, trivial,
        ((s.release f).release_nextDecodeFrameIndex g).trans hnext⟩

theorem Inv.purged (h : Inv pics s) :
    Ledger pics [] s.forPlayPurgeQueued ∧ s.forPlayPurgeQueued.deferred = none ∧
      s.forPlayPurgeQueued.deferredSecondField = none ∧
      s.forPlayPurgeQueued.nextDecodeFrameIndex = s.nextDecodeFrameIndex := by
  have hall : Ledger pics (s.held ++ []) s := by
    rw [List.append_nil]
    exact h.ledger
  exact hall.purge h.slots

theorem Inv.purge (h : Inv pics s) : Inv pics s.forPlayPurgeQueued := by
  obtain ⟨hl, hd, hs, hn⟩ := h.purged
  refine ⟨?_, fun _ => hs, hn.trans h.decoded⟩
  unfold Video.held
  rw [hd, hs]
  exact hl

theorem Inv.process (h : Inv pics s) (p : Picture) : Inv pics (s.forPlayProcessQueued p) := by
  unfold Video.forPlayProcessQueued
  split
  · exact h.purge
  · exact h

theorem Ledger.purgeInconsistent {extra : List CodedFrame} (p : Picture)
    (h : Ledger pics (s.held ++ extra) s)
    (hslots : s.deferred = none → s.deferredSecondField = none) :
    Ledger pics ((s.purgeInconsistent p).held ++ extra) (s.purgeInconsistent p) ∧
      (s.purgeInconsistent p).deferredSecondField = none ∧
      (s.purgeInconsistent p).nextDecodeFrameIndex = s.nextDecodeFrameIndex := by
  have hpurged := h.purge hslots
  have hbranch : s.purgeInconsistent p = s.forPlayPurgeQueued ∨
      (s.purgeInconsistent p = s ∧ s.deferredSecondField = none) := by
    have htwice : s.forPlayPurgeQueued.deferredSecondField = none := hpurged.2.2.1
    unfold Video.purgeInconsistent
    cases hd : s.deferred with
    | none =>
      have hs := hslots hd
      simp [hs]
    | some f =>
      by_cases hx : (f.picture.pictureStructure ^^^ p.pictureStructure) != structureFrame
      · simp [hx, htwice]
      · simp only [hx, if_false, Bool.false_eq_true]
        cases hs : s.deferredSecondField with
        | none => exact .inr ⟨rfl, rfl⟩
        | some g => exact .inl rfl
  rcases hbranch with heq | ⟨heq, hs⟩
  · obtain ⟨hl, hd, hs, hn⟩ := hpurged
    rw [heq]
    refine ⟨?_, hs, hn⟩
    unfold Video.held
    rw [hd, hs]
    exact hl
  · rw [heq]
    exact ⟨h, hs, rfl⟩

theorem Ledger.deferPicture (h : Ledger pics (s.held ++ [f]) s)
    (hsecond : s.deferredSecondField = none) :
    Ledger pics (s.deferPicture f).held (s.deferPicture f) ∧
      ((s.deferPicture f).deferred = none → (s.deferPicture f).deferredSecondField = none) ∧
      (s.deferPicture f).nextDecodeFrameIndex = s.nextDecodeFrameIndex := by
  unfold Video.held at h
  rw [hsecond] at h
  unfold Video.deferPicture Video.held
  cases hd : s.deferred with
  | none =>
    rw [hd] at h
    simp only [hsecond]
    exact ⟨Ledger.congr h rfl rfl, fun _ => trivial, trivial⟩
  | some g =>
    rw [hd] at h
    exact ⟨Ledger.congr h rfl rfl, fun hc => absurd hc (by simp), rfl⟩

theorem Inv.generate (h : Inv pics s) (p : Picture) :
    Inv (pics ++ [p]) { s.forPlayGenerate p with
      nextDecodeFrameIndex := (s.forPlayGenerate p).nextDecodeFrameIndex + 1 } := by
  unfold Video.forPlayGenerate
  rw [h.decoded]
  cases hp : p.referenceFrame with
  | false =>
    simp only [Bool.not_false, if_true]
    obtain ⟨hd, hs, hn⟩ := calculate_frame s ⟨pics.length, p⟩
    refine ⟨?_, ?_, ?_⟩
    · unfold Video.held
      simp only [hd, hs]
      exact Ledger.congr (h.ledger.nonReference hp) rfl rfl
    · simp only [hd, hs]
      exact h.slots
    · simp [hn, h.decoded]
  | true =>
    simp only [Bool.not_true, Bool.false_eq_true, if_false]
    have htake := h.ledger.reference hp
    generalize ht : s.record (.incrementReferenceCount pics.length) = t at htake
    have hheld : t.held = s.held := by rw [← ht]; rfl
    have hslots : t.deferred = none → t.deferredSecondField = none := by
      rw [← ht]
      exact h.slots
    have hnext : t.nextDecodeFrameIndex = pics.length := by
      rw [← ht]
      exact h.decoded
    have htake' : Ledger (pics ++ [p]) (t.held ++ [⟨pics.length, p⟩]) t := by
      rw [hheld]
      exact htake.perm (List.perm_append_singleton _ _).symm
    obtain ⟨hl, hs, hn⟩ := htake'.purgeInconsistent p hslots
    obtain ⟨hl', hs', hn'⟩ := hl.deferPicture hs
    refine ⟨?_, hs', ?_⟩
    · exact Ledger.congr hl' rfl rfl
    · show ((t.purgeInconsistent p).deferPicture _).nextDecodeFrameIndex + 1 = _
      rw [hn', hn, hnext]
      simp

/-! ## Runs -/

/-- The pictures among the inputs that are not refused, which are queued for decode. -/
def pictures (inputs : List Input) : List Picture :=
  inputs.filterMap fun
    | .picture p prepared _ => if prepared then some p else none
    | .discontinuity => none

theorem pictures_append (l m : List Input) : pictures (l ++ m) = pictures l ++ pictures m :=
  List.filterMap_append

theorem Inv.processBuffer (h : Inv pics s) (i : Input) :
    Inv (pics ++ pictures [i]) (s.processBuffer i) := by
  cases i with
  | picture p prepared followedByStreamTerminate =>
    cases prepared with
    | false =>
      show Inv (pics ++ []) s
      rw [List.append_nil]
      exact h
    | true =>
      have hg := (h.process p).generate p
      show Inv (pics ++ [p]) (s.forPlayProcessFrame p true followedByStreamTerminate)
      unfold Video.forPlayProcessFrame
      cases followedByStreamTerminate with
      | false => exact hg
      | true => exact hg.purge
  | discontinuity =>
    have hp := h.purge
    show Inv (pics ++ []) { s.forPlayPurgeQueued with collapseHolesInDisplayIndices := true }
    rw [List.append_nil]
    exact ⟨Ledger.congr hp.ledger rfl rfl, hp.slots, hp.decoded⟩

theorem Inv.reset : Inv [] Video.reset := by
  refine ⟨⟨rfl, ?_, ?_, ?_, ?_⟩, fun _ => rfl, rfl⟩
  · exact fun f hf => absurd hf (List.not_mem_nil)
  · exact fun k => by simp [Video.reset, labels, Video.held]
  · exact fun k => by simp [Video.reset, FrameParser.taken]
  · exact fun k => by simp [Video.reset, FrameParser.taken, dropped, Video.held]

theorem Inv.foldl (h : Inv pics s) : ∀ inputs : List Input,
    Inv (pics ++ pictures inputs) (inputs.foldl Video.processBuffer s) := by
  intro inputs
  induction inputs generalizing pics s with
  | nil => rw [pictures, List.filterMap_nil, List.append_nil]; exact h
  | cons i rest ih =>
    have hstep := ih (h.processBuffer i)
    rw [List.append_assoc, ← pictures_append] at hstep
    exact hstep

theorem Video.runInputs_inv (inputs : List Input) :
    Inv (pictures inputs) (Video.runInputs inputs) := by
  have h := Inv.reset.foldl inputs
  rw [List.nil_append] at h
  exact h

/-! ## The log only grows -/

theorem Video.log_calculate (s : Video) (f : CodedFrame) :
    s.log <+: (s.calculateFrameIndexAndPts f).log := by
  obtain ⟨_, _, _, heq⟩ := calculate_eq s f
  rw [heq]
  exact List.prefix_append _ _

theorem Video.log_release (s : Video) (f : CodedFrame) : s.log <+: (s.release f).log :=
  (s.log_calculate f).trans (List.prefix_append _ _)

theorem Video.log_purge (s : Video) : s.log <+: s.forPlayPurgeQueued.log := by
  unfold Video.forPlayPurgeQueued
  cases s.deferred with
  | none => exact List.prefix_rfl
  | some f =>
    cases hs : (s.release f).deferredSecondField with
    | none =>
      simp only [hs]
      exact s.log_release f
    | some g =>
      simp only [hs]
      exact (s.log_release f).trans ((s.release f).log_release g)

theorem Video.log_purgeInconsistent (s : Video) (p : Picture) :
    s.log <+: (s.purgeInconsistent p).log := by
  unfold Video.purgeInconsistent
  cases s.deferred with
  | none =>
    dsimp only
    split
    · exact List.prefix_rfl
    · exact s.log_purge
  | some f =>
    by_cases hx : (f.picture.pictureStructure ^^^ p.pictureStructure) != structureFrame
    · simp only [hx, if_true]
      split
      · exact s.log_purge
      · exact s.log_purge.trans s.forPlayPurgeQueued.log_purge
    · simp only [hx, if_false, Bool.false_eq_true]
      split
      · exact List.prefix_rfl
      · exact s.log_purge

theorem Video.log_generate (s : Video) (p : Picture) : s.log <+: (s.forPlayGenerate p).log := by
  unfold Video.forPlayGenerate
  cases p.referenceFrame with
  | false => exact s.log_calculate _
  | true =>
    have htaken : s.log <+: (s.record (.incrementReferenceCount s.nextDecodeFrameIndex)).log :=
      List.prefix_append _ _
    have hpurged := htaken.trans (Video.log_purgeInconsistent _ p)
    simp only [Bool.not_true, Bool.false_eq_true, if_false]
    unfold Video.deferPicture
    split
    · exact hpurged
    · exact hpurged

theorem Video.log_processBuffer (s : Video) (i : Input) : s.log <+: (s.processBuffer i).log := by
  cases i with
  | picture p prepared followedByStreamTerminate =>
    have hprocess : s.log <+: (s.forPlayProcessQueued p).log := by
      unfold Video.forPlayProcessQueued
      split
      · exact s.log_purge
      · exact List.prefix_rfl
    have hgenerate := hprocess.trans (Video.log_generate _ p)
    have hcounted : ∀ t : Video, s.log <+: t.log → s.log <+:
        { t with nextDecodeFrameIndex := t.nextDecodeFrameIndex + 1 }.forPlayPurgeQueued.log :=
      fun t ht => ht.trans
        (Video.log_purge { t with nextDecodeFrameIndex := t.nextDecodeFrameIndex + 1 })
    cases prepared with
    | false => exact List.prefix_rfl
    | true =>
      show s.log <+: (s.forPlayProcessFrame p true followedByStreamTerminate).log
      unfold Video.forPlayProcessFrame
      cases followedByStreamTerminate with
      | false => exact hgenerate
      | true => exact hcounted _ hgenerate
  | discontinuity => exact s.log_purge

theorem Video.log_foldl (inputs : List Input) :
    ∀ s : Video, s.log <+: (inputs.foldl Video.processBuffer s).log := by
  induction inputs with
  | nil => exact fun s => List.prefix_rfl
  | cons i rest ih => exact fun s => (s.log_processBuffer i).trans (ih _)

theorem Video.runInputs_append (l m : List Input) :
    Video.runInputs (l ++ m) = m.foldl Video.processBuffer (Video.runInputs l) :=
  List.foldl_append

theorem Video.runInputs_snoc (l : List Input) (i : Input) :
    Video.runInputs (l ++ [i]) = (Video.runInputs l).processBuffer i :=
  Video.runInputs_append l [i]

theorem Video.labels_split (l m : List Input) : ∃ later,
    labels (Video.runInputs (l ++ m)).log = labels (Video.runInputs l).log ++ later ∧
    (∀ x ∈ labels (Video.runInputs l).log, x.2 < (Video.runInputs l).nextDisplayFrameIndex) ∧
    (∀ x ∈ later, (Video.runInputs l).nextDisplayFrameIndex ≤ x.2) := by
  have hnow := (Video.runInputs_inv l).ledger.indices
  have hend := (Video.runInputs_inv (l ++ m)).ledger.indices
  obtain ⟨tail, htail⟩ := Video.log_foldl m (Video.runInputs l)
  rw [Video.runInputs_append] at hend ⊢
  rw [← htail] at hend ⊢
  rw [labels_append] at hend ⊢
  rw [List.map_append, hnow] at hend
  refine ⟨labels tail, rfl, ?_, ?_⟩
  · intro x hx
    have hmem : x.2 ∈ (labels (Video.runInputs l).log).map (·.2) :=
      List.mem_map_of_mem hx
    rw [hnow] at hmem
    exact List.mem_range.mp hmem
  · intro x hx
    have hmem : x.2 ∈ (labels tail).map (·.2) := List.mem_map_of_mem hx
    have hnodup : (List.range (Video.runInputs l).nextDisplayFrameIndex
        ++ (labels tail).map (·.2)).Nodup := by
      rw [hend]
      exact List.nodup_range
    by_cases hlt : x.2 < (Video.runInputs l).nextDisplayFrameIndex
    · exact absurd rfl ((List.nodup_append.mp hnodup).2.2 _ (List.mem_range.mpr hlt) _ hmem)
    · exact Nat.le_of_not_lt hlt

/-! ## The order of the indices -/

/-- An input that neither begins nor continues a reference frame, and no flush. -/
def Input.NonReference : Input → Prop
  | .picture p prepared followedByStreamTerminate =>
    prepared = true → p.referenceFrame = false ∧ followedByStreamTerminate = false
  | .discontinuity => False

theorem Video.processBuffer_nonReference {i : Input} (h : i.NonReference) (s : Video) :
    (s.processBuffer i).deferred = s.deferred := by
  cases i with
  | discontinuity => exact h.elim
  | picture p prepared followedByStreamTerminate =>
    cases prepared with
    | false => rfl
    | true =>
      obtain ⟨hp, rfl⟩ := h rfl
      show (s.forPlayProcessFrame p true false).deferred = s.deferred
      unfold Video.forPlayProcessFrame Video.forPlayProcessQueued Video.forPlayGenerate
      simp only [hp, Bool.and_false, Bool.false_eq_true, if_false, Bool.not_false, Bool.not_true,
        if_true]
      exact (calculate_frame _ _).1

theorem Video.foldl_nonReference {mid : List Input} (h : ∀ i ∈ mid, i.NonReference) (s : Video) :
    (mid.foldl Video.processBuffer s).deferred = s.deferred := by
  induction mid generalizing s with
  | nil => rfl
  | cons i rest ih =>
    rw [List.foldl_cons, ih (fun j hj => h j (List.mem_cons_of_mem _ hj)),
      s.processBuffer_nonReference (h i List.mem_cons_self)]

theorem Inv.processBuffer_reference (h : Inv pics s) (hp : p.referenceFrame = true)
    (hfirst : p.firstDecodeOfFrame = true) :
    (s.processBuffer (.picture p true false)).deferred = some ⟨pics.length, p⟩ := by
  obtain ⟨-, hd, hs, hn⟩ := h.purged
  show (s.forPlayProcessFrame p true false).deferred = _
  unfold Video.forPlayProcessFrame Video.forPlayProcessQueued Video.forPlayGenerate
  simp only [hp, hfirst, Bool.and_self, Bool.not_true, Bool.false_eq_true, if_false, if_true]
  unfold Video.purgeInconsistent Video.record Video.deferPicture
  simp [hd, hs, hn, h.decoded]

theorem Video.labels_nonReference (hp : p.referenceFrame = false)
    (hfirst : p.firstDecodeOfFrame = true) (s : Video) (flush : Bool) : ∃ later,
    labels (s.processBuffer (.picture p true flush)).log
      = labels s.log ++ (s.nextDecodeFrameIndex, s.nextDisplayFrameIndex) :: later := by
  have hnow : ((s.forPlayProcessQueued p).forPlayGenerate p)
      = s.calculateFrameIndexAndPts ⟨s.nextDecodeFrameIndex, p⟩ := by
    unfold Video.forPlayProcessQueued Video.forPlayGenerate
    simp [hp]
  have hlabels := labels_calculate s ⟨s.nextDecodeFrameIndex, p⟩
  rw [if_pos hfirst, ← hnow] at hlabels
  show ∃ later, labels (s.forPlayProcessFrame p true flush).log = _
  unfold Video.forPlayProcessFrame
  generalize (s.forPlayProcessQueued p).forPlayGenerate p = t at hlabels ⊢
  cases flush with
  | false => exact ⟨[], hlabels⟩
  | true =>
    obtain ⟨tail, htail⟩ := Video.log_purge
      { t with nextDecodeFrameIndex := t.nextDecodeFrameIndex + 1 }
    refine ⟨labels tail, ?_⟩
    simp only [if_true, Bool.not_true, Bool.false_eq_true, if_false]
    rw [← htail, labels_append, hlabels]
    simp

/-! ## The numbering of every run -/

/-- What the log of the run over `inputs` says. Frame `k` is the `k`-th picture that is not
refused. -/
structure ForwardNumbering (inputs : List Input) : Prop where
  /-- A picture that is refused changes nothing, and is not numbered. -/
  refused : ∀ pre p flush post, inputs = pre ++ .picture p false flush :: post →
    Video.runInputs inputs = Video.runInputs (pre ++ post) ∧ pictures inputs = pictures (pre ++ post)
  /-- The indices are given in the order `0, 1, 2, …`. -/
  consecutive : (labels (Video.runInputs inputs).log).map (·.2)
    = List.range (Video.runInputs inputs).nextDisplayFrameIndex
  /-- A frame or first field has exactly one index, or waits in a deferred slot. -/
  once : ∀ k p, (pictures inputs)[k]? = some p → p.firstDecodeOfFrame = true →
    ((Video.runInputs inputs).holds k ∧ indicesOf (Video.runInputs inputs).log k = []) ∨
    (¬ (Video.runInputs inputs).holds k ∧ (indicesOf (Video.runInputs inputs).log k).length = 1)
  /-- A second field has none. -/
  secondField : ∀ k p, (pictures inputs)[k]? = some p → p.firstDecodeOfFrame = false →
    indicesOf (Video.runInputs inputs).log k = []
  /-- A flush, or the first picture of the next reference frame, ends the wait. -/
  settled : (∀ k, ¬ (Video.runInputs (inputs ++ [.discontinuity])).holds k) ∧
    ∀ p flush k, p.referenceFrame = true → p.firstDecodeOfFrame = true →
      k < (pictures inputs).length →
        ¬ (Video.runInputs (inputs ++ [.picture p true flush])).holds k
  /-- What waits is a reference picture. -/
  waiting : ∀ k p, (pictures inputs)[k]? = some p → (Video.runInputs inputs).holds k →
    p.referenceFrame = true
  /-- The extra reference of a reference picture is taken once, and dropped once
  when it no longer waits; other pictures' buffers are not touched. -/
  references : ∀ k p, (pictures inputs)[k]? = some p →
    (taken (Video.runInputs inputs).log).count k = (if p.referenceFrame then 1 else 0) ∧
    ((Video.runInputs inputs).holds k → (dropped (Video.runInputs inputs).log).count k = 0) ∧
    (¬ (Video.runInputs inputs).holds k →
      (dropped (Video.runInputs inputs).log).count k = if p.referenceFrame then 1 else 0)
  /-- A non-reference picture is given the next index as it is parsed. -/
  immediate : ∀ pre b flush post, inputs = pre ++ .picture b true flush :: post →
    b.referenceFrame = false → b.firstDecodeOfFrame = true →
    indicesOf (Video.runInputs inputs).log (pictures pre).length
      = [(Video.runInputs pre).nextDisplayFrameIndex]
  /-- A reference picture comes after the non-reference pictures that follow it
  up to the next reference picture or flush. -/
  deferredOrder : ∀ pre r mid b flush post,
    inputs = pre ++ .picture r true false :: (mid ++ .picture b true flush :: post) →
    r.referenceFrame = true → (∀ i ∈ mid, i.NonReference) → b.referenceFrame = false →
    ∀ i ∈ indicesOf (Video.runInputs inputs).log (pictures pre).length,
    ∀ j ∈ indicesOf (Video.runInputs inputs).log
      ((pictures pre).length + 1 + (pictures mid).length), j < i

theorem mem_indicesOf {log : List Effect} {k i : Nat} :
    i ∈ indicesOf log k ↔ (k, i) ∈ labels log := by
  unfold indicesOf
  constructor
  · intro h
    obtain ⟨⟨a, b⟩, hx, rfl⟩ := List.mem_map.mp h
    obtain ⟨hmem, heq⟩ := List.mem_filter.mp hx
    obtain rfl : a = k := by simpa using heq
    exact hmem
  · intro h
    exact List.mem_map.mpr ⟨(k, i), List.mem_filter.mpr ⟨h, by simp⟩, rfl⟩

theorem label_at {l : List (Nat × Nat)} {n k i : Nat} (h : l.map (·.2) = List.range n)
    (hmem : (k, i) ∈ l) : l[i]? = some (k, i) := by
  obtain ⟨m, hm⟩ := List.mem_iff_getElem?.mp hmem
  have hsnd : (l.map (·.2))[m]? = some i := by rw [List.getElem?_map, hm]; rfl
  have hlt : m < n := by
    have := (List.getElem?_eq_some_iff.mp (h ▸ hsnd)).1
    simpa using this
  rw [h, List.getElem?_range hlt] at hsnd
  obtain rfl := Option.some.inj hsnd
  exact hm

theorem holds_iff {s : Video} {k : Nat} :
    s.holds k ↔ 0 < (s.held.map (·.decodeFrameIndex)).count k := by
  rw [List.count_pos_iff, List.mem_map]
  rfl

theorem indicesOf_eq_nil {log : List Effect} {k : Nat}
    (h : ((labels log).map (·.1)).count k = 0) : indicesOf log k = [] := by
  rw [← length_indicesOf] at h
  exact List.eq_nil_of_length_eq_zero h

theorem Ledger.count_first {k : Nat} (h : Ledger pics held s) (hk : pics[k]? = some p)
    (hfirst : p.firstDecodeOfFrame = true) :
    ((held.filter (·.picture.firstDecodeOfFrame)).map (·.decodeFrameIndex)).count k
      = (held.map (·.decodeFrameIndex)).count k := by
  have hsame : ∀ f ∈ held, f.decodeFrameIndex = k → f.picture.firstDecodeOfFrame = true := by
    intro f hf hid
    have hat := h.held_at f hf
    rw [hid, hk] at hat
    rw [← Option.some.inj hat]
    exact hfirst
  clear h
  induction held with
  | nil => rfl
  | cons f rest ih =>
    have hrest := ih (fun g hg => hsame g (List.mem_cons_of_mem _ hg))
    cases hf : f.picture.firstDecodeOfFrame with
    | true => simp [hf, List.count_cons, hrest]
    | false =>
      have hne : f.decodeFrameIndex ≠ k := by
        intro hid
        rw [hsame f List.mem_cons_self hid] at hf
        cases hf
      simp [hf, hrest, hne]

theorem Inv.not_holds_purge (h : Inv pics s) (k : Nat) : ¬ s.forPlayPurgeQueued.holds k := by
  obtain ⟨-, hd, hs, -⟩ := h.purged
  rintro ⟨f, hf, -⟩
  unfold Video.held at hf
  rw [hd, hs] at hf
  cases hf

theorem Inv.not_holds_reference {k : Nat} {flush : Bool} (h : Inv pics s)
    (hp : p.referenceFrame = true) (hfirst : p.firstDecodeOfFrame = true)
    (hk : k < pics.length) : ¬ (s.processBuffer (.picture p true flush)).holds k := by
  cases flush with
  | true => exact (Inv.generate (h.process p) p).not_holds_purge k
  | false =>
    have hone := h.processBuffer_reference hp hfirst
    have hinv := h.processBuffer (.picture p true false)
    have hled := hinv.ledger
    rintro ⟨f, hf, rfl⟩
    -- a second frame in the slots would be the picture itself, taken twice
    unfold Video.held at hf hled
    rw [hone] at hf hled
    rcases List.mem_append.mp hf with hslot | hsecond
    · obtain rfl : f = ⟨pics.length, p⟩ := by simpa using hslot
      exact Nat.lt_irrefl _ hk
    · obtain ⟨-, hd, hs, hn⟩ := h.purged
      have hempty : (s.processBuffer (.picture p true false)).deferredSecondField = none := by
        show (s.forPlayProcessFrame p true false).deferredSecondField = none
        unfold Video.forPlayProcessFrame Video.forPlayProcessQueued Video.forPlayGenerate
        simp only [hp, hfirst, Bool.and_self, Bool.not_true, Bool.false_eq_true, if_false,
          if_true]
        unfold Video.purgeInconsistent Video.record Video.deferPicture
        simp [hd, hs]
      rw [hempty] at hsecond
      cases hsecond

variable {inputs : List Input} {k : Nat}

theorem Video.waits_or_numbered (hk : (pictures inputs)[k]? = some p)
    (hfirst : p.firstDecodeOfFrame = true) :
    ((Video.runInputs inputs).holds k ∧ indicesOf (Video.runInputs inputs).log k = []) ∨
    (¬ (Video.runInputs inputs).holds k ∧
      (indicesOf (Video.runInputs inputs).log k).length = 1) := by
  have hled := (Video.runInputs_inv inputs).ledger
  have hcount := hled.labelled k
  rw [hled.count_first hk hfirst, hk, Option.any_some, hfirst, if_pos rfl] at hcount
  by_cases hh : (Video.runInputs inputs).holds k
  · have hpos := holds_iff.mp hh
    exact .inl ⟨hh, indicesOf_eq_nil (by omega)⟩
  · refine .inr ⟨hh, ?_⟩
    rw [holds_iff] at hh
    rw [length_indicesOf]
    omega

theorem Video.first_of_numbered (hk : (pictures inputs)[k]? = some p)
    (hi : indicesOf (Video.runInputs inputs).log k ≠ []) : p.firstDecodeOfFrame = true := by
  by_contra hfirst
  have hcount := (Video.runInputs_inv inputs).ledger.labelled k
  rw [hk, Option.any_some, if_neg hfirst] at hcount
  exact hi (indicesOf_eq_nil (by omega))

theorem Video.numbered_at_once {pre : List Input} {b : Picture} {flush : Bool} {post : List Input}
    (heq : inputs = pre ++ .picture b true flush :: post) (hb : b.referenceFrame = false)
    (hfirst : b.firstDecodeOfFrame = true) :
    indicesOf (Video.runInputs inputs).log (pictures pre).length
      = [(Video.runInputs pre).nextDisplayFrameIndex] := by
  have hdecoded := (Video.runInputs_inv pre).decoded
  obtain ⟨later, hlater⟩ := Video.labels_nonReference hb hfirst (Video.runInputs pre) flush
  have hsplit : inputs = (pre ++ [.picture b true flush]) ++ post := by rw [heq]; simp
  obtain ⟨rest, hrest, -, -⟩ := Video.labels_split (pre ++ [.picture b true flush]) post
  rw [Video.runInputs_snoc, hlater, hdecoded] at hrest
  have hmem : (Video.runInputs pre).nextDisplayFrameIndex
      ∈ indicesOf (Video.runInputs inputs).log (pictures pre).length := by
    rw [mem_indicesOf, hsplit, hrest]
    simp
  have hat : (pictures inputs)[(pictures pre).length]? = some b := by
    rw [heq, pictures_append]
    simp [pictures]
  rcases Video.waits_or_numbered hat hfirst with ⟨-, hnil⟩ | ⟨-, hone⟩
  · rw [hnil] at hmem
    cases hmem
  · obtain ⟨i, hi⟩ := List.length_eq_one_iff.mp hone
    rw [hi] at hmem ⊢
    rw [List.mem_singleton.mp hmem]

/-- A picture that waits at some time has no index by then, and later none below the next. -/
theorem Video.index_of_waiting {pre post : List Input} {r : Picture} {i : Nat}
    (hk : (pictures pre)[k]? = some r) (hfirst : r.firstDecodeOfFrame = true)
    (hheld : (Video.runInputs pre).holds k)
    (hi : i ∈ indicesOf (Video.runInputs (pre ++ post)).log k) :
    (Video.runInputs pre).nextDisplayFrameIndex ≤ i := by
  obtain ⟨later, hlater, -, hafter⟩ := Video.labels_split pre post
  have hir := mem_indicesOf.mp hi
  rw [hlater] at hir
  refine hafter _ ((List.mem_append.mp hir).resolve_left fun hmem => ?_)
  rcases Video.waits_or_numbered hk hfirst with ⟨-, hnil⟩ | ⟨hnot, -⟩
  · have hnone := mem_indicesOf.mpr hmem
    rw [hnil] at hnone
    cases hnone
  · exact hnot hheld

theorem Video.reference_after {pre mid post : List Input} {r b : Picture} {flush : Bool} {i j : Nat}
    (heq : inputs = pre ++ .picture r true false :: (mid ++ .picture b true flush :: post))
    (hr : r.referenceFrame = true) (hmid : ∀ i ∈ mid, i.NonReference)
    (hb : b.referenceFrame = false)
    (hi : i ∈ indicesOf (Video.runInputs inputs).log (pictures pre).length)
    (hj : j ∈ indicesOf (Video.runInputs inputs).log
      ((pictures pre).length + 1 + (pictures mid).length)) : j < i := by
  generalize hA : pre ++ .picture r true false :: mid = A
  have hsplit : inputs = A ++ .picture b true flush :: post := by rw [heq, ← hA]; simp
  have hApics : pictures A = pictures pre ++ r :: pictures mid := by
    rw [← hA, pictures_append]
    rfl
  have hAlen : (pictures A).length = (pictures pre).length + 1 + (pictures mid).length := by
    rw [hApics, List.length_append, List.length_cons]
    omega
  have hatA : (pictures A)[(pictures pre).length]? = some r := by
    rw [hApics]
    simp
  have hatr : (pictures inputs)[(pictures pre).length]? = some r := by
    rw [heq, pictures_append]
    simp [pictures]
  have hatb : (pictures inputs)[(pictures A).length]? = some b := by
    rw [hsplit, pictures_append]
    simp [pictures]
  have hrfirst := Video.first_of_numbered hatr (List.ne_nil_of_mem hi)
  rw [← hAlen] at hj
  have hbfirst := Video.first_of_numbered hatb (List.ne_nil_of_mem hj)
  -- the non-reference picture takes the next index, the reference picture still waits
  have hnow := Video.numbered_at_once hsplit hb hbfirst
  rw [hnow] at hj
  obtain rfl := List.mem_singleton.mp hj
  have hslot : (Video.runInputs A).deferred = some ⟨(pictures pre).length, r⟩ := by
    rw [← hA, Video.runInputs_append, List.foldl_cons, Video.foldl_nonReference hmid]
    exact (Video.runInputs_inv pre).processBuffer_reference hr hrfirst
  have hheld : (Video.runInputs A).holds (pictures pre).length :=
    ⟨_, List.mem_append_left _ (by rw [hslot]; exact List.mem_singleton_self _), rfl⟩
  have hle := Video.index_of_waiting hatA hrfirst hheld (hsplit ▸ hi)
  -- and no index is given twice
  refine Nat.lt_of_le_of_ne hle ?_
  intro hsame
  have hb' : ((pictures A).length, i) ∈ labels (Video.runInputs inputs).log := by
    rw [← mem_indicesOf, hnow, hsame]
    exact List.mem_singleton_self _
  have hindices := (Video.runInputs_inv inputs).ledger.indices
  have hat1 := label_at hindices (mem_indicesOf.mp hi)
  have hat2 := label_at hindices hb'
  rw [hat1] at hat2
  have hk := (Prod.mk.inj (Option.some.inj hat2)).1
  omega

/-- **Forward display numbering**, for every sequence of pictures and flushes. -/
theorem forwardNumbering (inputs : List Input) : ForwardNumbering inputs := by
  have hinv := Video.runInputs_inv inputs
  have hled := hinv.ledger
  constructor
  case refused =>
    rintro pre p flush post rfl
    refine ⟨?_, ?_⟩
    · rw [Video.runInputs_append, Video.runInputs_append]
      rfl
    · rw [pictures_append, pictures_append]
      rfl
  case consecutive => exact hled.indices
  case once => exact fun k p hk hfirst => Video.waits_or_numbered hk hfirst
  case secondField =>
    intro k p hk hfirst
    by_contra hi
    exact Bool.false_ne_true (hfirst.symm.trans (Video.first_of_numbered hk hi))
  case settled =>
    constructor
    · intro k
      rw [Video.runInputs_snoc]
      exact hinv.not_holds_purge k
    · intro p flush k hp hfirst hk
      rw [Video.runInputs_snoc]
      exact hinv.not_holds_reference hp hfirst hk
  case waiting =>
    intro k p hk hh
    have htaken := hled.taken k
    have hbalance := hled.balance k
    have hpos := holds_iff.mp hh
    rw [hk, Option.any_some] at htaken
    by_cases hp : p.referenceFrame = true
    · exact hp
    · rw [if_neg hp] at htaken
      omega
  case references =>
    intro k p hk
    have htaken := hled.taken k
    have hbalance := hled.balance k
    rw [hk, Option.any_some] at htaken
    refine ⟨htaken, ?_, ?_⟩
    · intro hh
      have hpos := holds_iff.mp hh
      split at htaken <;> omega
    · intro hh
      rw [holds_iff] at hh
      omega
  case immediate => exact fun pre b flush post heq hb hfirst =>
    Video.numbered_at_once heq hb hfirst
  case deferredOrder => exact fun pre r mid b flush post heq hr hmid hb i hi j hj =>
    Video.reference_after heq hr hmid hb hi hj

/-- A flush numbers the reference picture it finds waiting, so the order of
`deferredOrder` does not reach across one: a reference frame followed by a
stream terminate is numbered before the non-reference frame after it. And a
picture that is refused is never numbered. -/
theorem forwardNumbering_departs :
    (¬ ∀ (pre : List Input) (r : Picture) (terminate : Bool) (mid : List Input) (b : Picture)
        (flush : Bool) (post : List Input), r.referenceFrame = true →
        (∀ p ∈ pictures mid, p.referenceFrame = false) → b.referenceFrame = false →
        let s := Video.runInputs
          (pre ++ .picture r true terminate :: (mid ++ .picture b true flush :: post))
        ∀ i ∈ indicesOf s.log (pictures pre).length,
        ∀ j ∈ indicesOf s.log ((pictures pre).length + 1 + (pictures mid).length), j < i) ∧
    labels (Video.runInputs
      [.picture ⟨structureFrame, true, 1, 1, false, true⟩ false true, .discontinuity]).log = [] := by
  refine ⟨fun h => ?_, rfl⟩
  have hbad := h [] ⟨structureFrame, true, 1, 1, true, true⟩ true []
    ⟨structureFrame, true, 1, 1, false, true⟩ false [] rfl (by simp [pictures]) rfl
    0 (by decide) 1 (by decide)
  exact absurd hbad (by decide)

end Duckbox.FrameParser
