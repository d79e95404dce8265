import Duckbox.FrameParser.VideoNumbering

/-!
# Reverse numbering mirrors forward numbering

The order of display is a function of the pictures (`displayOrder`): a reference
frame comes after the non-reference frames that follow it in the stream. Forward
play gives indices in that order with one frame of look-behind; reverse play
meets the frames last first and gives them in the opposite order with a ring
(`foldr_ringed`), so the two number the same pictures as mirror images
(`reverseNumbering_mirrors`).
-/

namespace Duckbox.FrameParser

def CodedFrame.isReference (f : CodedFrame) : Bool := f.picture.referenceFrame

/-! ## The order of display -/

section Order

variable {α : Type} {reference : α → Bool}

/-- The frames in order of display, where a reference frame may be pending. -/
def displayOrder (reference : α → Bool) : Option α → List α → List α
  | pending, [] => pending.toList
  | pending, f :: rest =>
    if reference f then pending.toList ++ displayOrder reference (some f) rest
    else f :: displayOrder reference pending rest

theorem displayOrder_reference {f : α} (h : reference f = true) (pending : Option α)
    (rest : List α) :
    displayOrder reference pending (f :: rest)
      = pending.toList ++ displayOrder reference (some f) rest := if_pos h

theorem displayOrder_nonReference {f : α} (h : reference f = false) (pending : Option α)
    (rest : List α) :
    displayOrder reference pending (f :: rest) = f :: displayOrder reference pending rest :=
  if_neg (by simp [h])

/-- What is out and what is on the ring after one more frame, going backwards. -/
def ringed (reference : α → Bool) (f : α) (s : List α × List α) : List α × List α :=
  if reference f then (s.1 ++ f :: s.2, []) else (s.1, s.2 ++ [f])

theorem ringed_reference (reference : α → Bool) {f : α} (h : reference f = true) (s : List α × List α) :
    ringed reference f s = (s.1 ++ f :: s.2, []) := if_pos h

theorem ringed_nonReference (reference : α → Bool) {f : α} (h : reference f = false) (s : List α × List α) :
    ringed reference f s = (s.1, s.2 ++ [f]) := if_neg (by simp [h])

theorem foldr_ringed (reference : α → Bool) (r : α) (frames : List α) :
    ∀ {out ring}, frames.foldr (ringed reference) ([], []) = (out, ring) →
      out ++ r :: ring = (displayOrder reference (some r) frames).reverse := by
  induction frames generalizing r with
  | nil =>
    intro out ring h
    obtain ⟨rfl, rfl⟩ := Prod.mk.inj h
    rfl
  | cons f frames ih =>
    intro out ring h
    rcases hrest : frames.foldr (ringed reference) ([], []) with ⟨out', ring'⟩
    rw [List.foldr_cons, hrest] at h
    cases href : reference f with
    | true =>
      rw [ringed_reference reference href] at h
      obtain ⟨rfl, rfl⟩ := Prod.mk.inj h
      rw [displayOrder_reference href, Option.toList_some, List.singleton_append, List.reverse_cons, ← ih f hrest]
    | false =>
      rw [ringed_nonReference reference href] at h
      obtain ⟨rfl, rfl⟩ := Prod.mk.inj h
      rw [displayOrder_nonReference href, List.reverse_cons, ← ih r hrest, List.append_assoc]
      rfl

theorem displayOrder_perm (reference : α → Bool) (pending : Option α) (frames : List α) :
    (displayOrder reference pending frames).Perm (pending.toList ++ frames) := by
  induction frames generalizing pending with
  | nil => rw [List.append_nil]; rfl
  | cons f frames ih =>
    unfold displayOrder
    split
    · exact (ih (some f)).append_left _
    · exact ((ih pending).cons f).trans List.perm_middle.symm

theorem displayOrder_append (pending : Option α) (group rest : List α)
    (hrest : ∀ f ∈ rest.head?, reference f = true) :
    displayOrder reference pending (group ++ rest)
      = displayOrder reference pending group ++ displayOrder reference none rest := by
  induction group generalizing pending with
  | nil =>
    cases rest with
    | nil => exact (List.append_nil _).symm
    | cons f rest =>
      have href := hrest f rfl
      simp only [List.nil_append, displayOrder, href, if_true, Option.toList_none]
  | cons f group ih =>
    simp only [List.cons_append, displayOrder]
    split
    · rw [ih (some f), List.append_assoc]
    · rw [ih pending, List.cons_append]

theorem mem_of_mem_ringed {frames : List α} {f : α}
    (h : f ∈ (frames.foldr (ringed reference) ([], [])).2) : f ∈ frames := by
  induction frames with
  | nil => exact h
  | cons g frames ih =>
    rw [List.foldr_cons] at h
    unfold ringed at h
    split at h
    · exact absurd h List.not_mem_nil
    · rcases List.mem_append.mp h with h | h
      · exact List.mem_cons_of_mem _ (ih h)
      · rw [List.mem_singleton.mp h]
        exact List.mem_cons_self

theorem length_ringed (reference : α → Bool) (frames : List α) :
    (frames.foldr (ringed reference) ([], [])).2.length ≤ frames.length := by
  induction frames with
  | nil => exact Nat.le_refl 0
  | cons f frames ih =>
    rw [List.foldr_cons, List.length_cons]
    unfold ringed
    split
    · exact Nat.zero_le _
    · rw [List.length_append, List.length_singleton]
      exact Nat.succ_le_succ ih

end Order

/-! ## Frames numbered in an order -/

/-- The labels of frames numbered from `k` on. -/
def numberedFrom : Nat → List CodedFrame → List (Nat × Nat)
  | _, [] => []
  | k, f :: rest => (f.decodeFrameIndex, k) :: numberedFrom (k + 1) rest

theorem numberedFrom_append (k : Nat) (l m : List CodedFrame) :
    numberedFrom k (l ++ m) = numberedFrom k l ++ numberedFrom (k + l.length) m := by
  induction l generalizing k with
  | nil => rfl
  | cons f l ih =>
    rw [List.cons_append, numberedFrom, numberedFrom, ih, List.length_cons, List.cons_append,
      Nat.add_assoc, Nat.add_comm 1]

theorem map_fst_numberedFrom (k : Nat) (l : List CodedFrame) :
    (numberedFrom k l).map (·.1) = l.map (·.decodeFrameIndex) := by
  induction l generalizing k with
  | nil => rfl
  | cons f l ih => rw [numberedFrom, List.map_cons, List.map_cons, ih]

theorem map_snd_numberedFrom (k : Nat) (l : List CodedFrame) :
    (numberedFrom k l).map (·.2) = List.range' k l.length := by
  induction l generalizing k with
  | nil => rfl
  | cons f l ih => rw [numberedFrom, List.map_cons, ih, List.length_cons, List.range'_succ]

/-- From `s` to `s'` the frames of a list are numbered, in its order. -/
structure Numbers (s s' : Video) (order : List CodedFrame) : Prop where
  labels : labels s'.log = labels s.log ++ numberedFrom s.nextDisplayFrameIndex order
  next : s'.nextDisplayFrameIndex = s.nextDisplayFrameIndex + order.length

namespace Numbers

variable {s t u : Video} {l m : List CodedFrame} {f : CodedFrame} {p : Picture}

theorem refl (s : Video) : Numbers s s [] := ⟨(List.append_nil _).symm, rfl⟩

theorem trans (h : Numbers s t l) (h' : Numbers t u m) : Numbers s u (l ++ m) where
  labels := by rw [h'.labels, h.labels, h.next, numberedFrom_append, List.append_assoc]
  next := by rw [h'.next, h.next, List.length_append, Nat.add_assoc]

theorem calculate (s : Video) (hf : f.picture.firstDecodeOfFrame = true) :
    Numbers s (s.calculateFrameIndexAndPts f) [f] where
  labels := by
    rw [labels_calculate, if_pos hf]
    rfl
  next := by
    rw [next_calculate, if_pos hf]
    rfl

theorem calculateReverse (s : Video) (hf : f.picture.firstDecodeOfFrame = true) :
    Numbers s (s.calculateFrameIndexAndPtsReverse f) [f] := by
  unfold Video.calculateFrameIndexAndPtsReverse
  simp only [hf, Bool.not_true, Bool.false_eq_true, if_false]
  exact ⟨by simp only [labels_append]; rfl, rfl⟩

/-! ## Forward play -/

theorem release (s : Video) (hf : f.picture.firstDecodeOfFrame = true) :
    Numbers s (s.release f) [f] := by
  obtain ⟨hlabels, hnext⟩ := calculate s hf
  refine ⟨?_, hnext⟩
  rw [← hlabels]
  show FrameParser.labels ((s.calculateFrameIndexAndPts f).log ++ [_]) = _
  rw [labels_append]
  exact List.append_nil _

theorem purge {pending : Option CodedFrame} (hd : s.deferred = pending)
    (hs : s.deferredSecondField = none)
    (hfirst : ∀ f ∈ pending, f.picture.firstDecodeOfFrame = true) :
    Numbers s s.forPlayPurgeQueued pending.toList ∧ s.forPlayPurgeQueued.deferred = none ∧
      s.forPlayPurgeQueued.deferredSecondField = none ∧
      s.forPlayPurgeQueued.nextDecodeFrameIndex = s.nextDecodeFrameIndex := by
  unfold Video.forPlayPurgeQueued
  cases pending with
  | none =>
    rw [hd]
    exact ⟨refl s, hd, hs, rfl⟩
  | some f =>
    have hsecond : (s.release f).deferredSecondField = none :=
      (s.release_deferredSecondField f).trans hs
    simp only [hd, hsecond]
    obtain ⟨hlabels, hnext⟩ := release s (hfirst f rfl)
    exact ⟨⟨hlabels, hnext⟩, trivial, trivial, s.release_nextDecodeFrameIndex f⟩

theorem nonReference (s : Video) (hp : p.referenceFrame = false)
    (hfirst : p.firstDecodeOfFrame = true) :
    Numbers s (s.forPlayProcessFrame p true false) [⟨s.nextDecodeFrameIndex, p⟩] ∧
      (s.forPlayProcessFrame p true false).deferred = s.deferred ∧
      (s.forPlayProcessFrame p true false).deferredSecondField = s.deferredSecondField ∧
      (s.forPlayProcessFrame p true false).nextDecodeFrameIndex = s.nextDecodeFrameIndex + 1 := by
  obtain ⟨hlabels, hnext⟩ := calculate s (f := ⟨s.nextDecodeFrameIndex, p⟩) hfirst
  obtain ⟨hd, hs, hn⟩ := calculate_frame s ⟨s.nextDecodeFrameIndex, p⟩
  unfold Video.forPlayProcessFrame Video.forPlayProcessQueued Video.forPlayGenerate
  simp only [hp, Bool.and_false, Bool.false_eq_true, if_false, Bool.not_false, if_true]
  exact ⟨⟨hlabels, hnext⟩, hd, hs, congrArg (· + 1) hn⟩

theorem reference {pending : Option CodedFrame} (hd : s.deferred = pending)
    (hs : s.deferredSecondField = none)
    (hpending : ∀ f ∈ pending, f.picture.firstDecodeOfFrame = true)
    (hp : p.referenceFrame = true) (hfirst : p.firstDecodeOfFrame = true) :
    Numbers s (s.forPlayProcessFrame p true false) pending.toList ∧
      (s.forPlayProcessFrame p true false).deferred = some ⟨s.nextDecodeFrameIndex, p⟩ ∧
      (s.forPlayProcessFrame p true false).deferredSecondField = none ∧
      (s.forPlayProcessFrame p true false).nextDecodeFrameIndex = s.nextDecodeFrameIndex + 1 := by
  obtain ⟨⟨hlabels, hnext⟩, hd', hs', hn⟩ := purge hd hs hpending
  unfold Video.forPlayProcessFrame Video.forPlayProcessQueued Video.forPlayGenerate
  simp only [hp, hfirst, Bool.and_self, Bool.not_true, Bool.false_eq_true, if_false, if_true]
  unfold Video.purgeInconsistent Video.record Video.deferPicture
  simp only [hd', hs', hn]
  refine ⟨⟨?_, hnext⟩, trivial, trivial, trivial⟩
  rw [← hlabels, labels_append]
  exact List.append_nil _

theorem playPictures (frames : List CodedFrame) :
    ∀ {s : Video} {pending : Option CodedFrame}, s.deferred = pending →
      s.deferredSecondField = none →
      (∀ f ∈ pending.toList ++ frames, f.picture.firstDecodeOfFrame = true) →
      frames.map (·.decodeFrameIndex) = List.range' s.nextDecodeFrameIndex frames.length →
      Numbers s (s.playPictures (frames.map (·.picture)))
        (displayOrder CodedFrame.isReference pending frames) := by
  induction frames with
  | nil =>
    intro s pending hd hs hfirst _
    exact (purge hd hs fun f hf => hfirst f (by simpa using hf)).1
  | cons f frames ih =>
    intro s pending hd hs hfirst hnames
    have hname : f = ⟨s.nextDecodeFrameIndex, f.picture⟩ := by
      rw [List.map_cons, List.length_cons, List.range'_succ] at hnames
      rw [← (List.cons.inj hnames).1]
    have hrest : frames.map (·.decodeFrameIndex)
        = List.range' (s.nextDecodeFrameIndex + 1) frames.length := by
      rw [List.map_cons, List.length_cons, List.range'_succ] at hnames
      exact (List.cons.inj hnames).2
    have hf : f.picture.firstDecodeOfFrame = true := hfirst f (by simp)
    cases href : f.isReference with
    | true =>
      obtain ⟨hnumbers, hd', hs', hn⟩ :=
        reference hd hs (fun g hg => hfirst g (List.mem_append_left _ (by simpa using hg)))
          href hf
      rw [← hname] at hd'
      rw [displayOrder_reference href]
      refine hnumbers.trans (ih hd' hs' (fun g hg => ?_) (hn ▸ hrest))
      exact hfirst g (List.mem_append_right _ (by simpa using hg))
    | false =>
      obtain ⟨hnumbers, hd', hs', hn⟩ := nonReference s href hf
      rw [← hname] at hnumbers
      rw [displayOrder_nonReference href]
      refine hnumbers.trans (ih (hd'.trans hd) (hs'.trans hs) (fun g hg => ?_) (hn ▸ hrest))
      refine hfirst g ?_
      rcases List.mem_append.mp hg with hg | hg
      · exact List.mem_append_left _ hg
      · exact List.mem_append_right _ (List.mem_cons_of_mem _ hg)

/-! ## Reverse play -/

theorem numberRing (ring : List CodedFrame) :
    ∀ {s : Video}, (∀ f ∈ ring, f.picture.firstDecodeOfFrame = true) →
      Numbers s (ReverseNumbering.numberRing ring s) ring := by
  induction ring with
  | nil => intro s _; exact refl s
  | cons f ring ih =>
    intro s hfirst
    obtain ⟨hf, hrest⟩ := List.forall_mem_cons.mp hfirst
    exact (calculateReverse s hf).trans (ih hrest)

end Numbers

namespace ReverseNumbering

variable {r : ReverseNumbering} {frameBufferCount : Nat}

theorem foldr_revPlayGenerate (frames : List CodedFrame)
    (hring : r.reverseQueuedPostDecodeSettingsRing = BufferPool.Ring.create frameBufferCount)
    (hroom : frames.length ≤ frameBufferCount)
    (hfirst : ∀ f ∈ frames, f.picture.firstDecodeOfFrame = true) :
    let s := frames.foldr (ringed CodedFrame.isReference) ([], [])
    let r' := frames.foldr (fun f r => r.revPlayGenerate f) r
    Numbers r.video r'.video s.1 ∧
      r'.reverseQueuedPostDecodeSettingsRing = ⟨frameBufferCount + 1, s.2⟩ := by
  induction frames with
  | nil => exact ⟨.refl _, hring⟩
  | cons f frames ih =>
    obtain ⟨hf, hrest⟩ := List.forall_mem_cons.mp hfirst
    rw [List.length_cons] at hroom
    obtain ⟨hnumbers, hring'⟩ := ih (by omega) hrest
    have hlength := length_ringed CodedFrame.isReference frames
    have hmem : ∀ g ∈ (frames.foldr (ringed CodedFrame.isReference) ([], [])).2,
        g.picture.firstDecodeOfFrame = true := fun g hg => hrest g (mem_of_mem_ringed hg)
    simp only [List.foldr_cons]
    generalize frames.foldr (fun f r => r.revPlayGenerate f) r = t at hnumbers hring' ⊢
    generalize frames.foldr (ringed CodedFrame.isReference) ([], []) = s
      at hnumbers hring' hlength hmem ⊢
    unfold revPlayGenerate
    cases href : f.picture.referenceFrame with
    | true =>
      rw [ringed_reference CodedFrame.isReference href]
      simp only [hf, Bool.not_true, Bool.false_eq_true, if_false, if_true, hring']
      refine ⟨?_, trivial⟩
      exact hnumbers.trans ((Numbers.calculateReverse _ hf).trans (Numbers.numberRing _ hmem))
    | false =>
      rw [ringed_nonReference CodedFrame.isReference href]
      simp only [Bool.not_false, if_true, hring']
      refine ⟨hnumbers, ?_⟩
      -- the ring takes it: it holds fewer frames than the group has
      unfold BufferPool.Ring.insert
      rw [if_neg (by simp only; omega)]

theorem unwind_numbers (group : List CodedFrame)
    (hring : r.reverseQueuedPostDecodeSettingsRing = BufferPool.Ring.create frameBufferCount)
    (hroom : group.length ≤ frameBufferCount)
    (hfirst : ∀ f ∈ group, f.picture.firstDecodeOfFrame = true)
    (hreference : ∀ f ∈ group.head?, f.picture.referenceFrame = true) :
    Numbers r.video (r.unwind group).video
        (displayOrder CodedFrame.isReference none group).reverse ∧
      (r.unwind group).reverseQueuedPostDecodeSettingsRing = BufferPool.Ring.create frameBufferCount := by
  obtain ⟨hnumbers, hring'⟩ := foldr_revPlayGenerate group hring hroom hfirst
  unfold unwind flush
  rw [List.foldl_reverse]
  refine ⟨?_, ?_⟩
  · cases group with
    | nil => exact hnumbers
    | cons f frames =>
      have href : f.isReference = true := hreference f rfl
      have horder := foldr_ringed CodedFrame.isReference f frames rfl
      have hlast : (f :: frames).foldr (ringed CodedFrame.isReference) ([], []) = _ :=
        ringed_reference CodedFrame.isReference href _
      rw [hlast, horder] at hnumbers
      rw [displayOrder_reference href]
      exact hnumbers
  · simp only [hring']
    rfl

theorem playGroups_numbers (groups : List (List CodedFrame))
    (hring : r.reverseQueuedPostDecodeSettingsRing = BufferPool.Ring.create frameBufferCount)
    (hroom : ∀ group ∈ groups, group.length ≤ frameBufferCount)
    (hfirst : ∀ group ∈ groups, ∀ f ∈ group, f.picture.firstDecodeOfFrame = true)
    (hreference : ∀ group ∈ groups, ∃ f ∈ group.head?, f.picture.referenceFrame = true) :
    Numbers r.video (r.playGroups groups).video
        (displayOrder CodedFrame.isReference none groups.flatten).reverse ∧
      (r.playGroups groups).reverseQueuedPostDecodeSettingsRing
        = BufferPool.Ring.create frameBufferCount := by
  unfold playGroups
  rw [List.foldl_reverse]
  induction groups with
  | nil => exact ⟨.refl _, hring⟩
  | cons group groups ih =>
    obtain ⟨hroom, hrooms⟩ := List.forall_mem_cons.mp hroom
    obtain ⟨hf, hfs⟩ := List.forall_mem_cons.mp hfirst
    obtain ⟨⟨f, hhead, href⟩, hreferences⟩ := List.forall_mem_cons.mp hreference
    obtain ⟨hnumbers, hring'⟩ := ih hrooms hfs hreferences
    have hgroup := unwind_numbers group hring' hroom hf fun g hg => by
      rw [Option.mem_unique hg hhead]
      exact href
    -- what follows the group begins with a reference frame, too
    have hnext : ∀ g ∈ groups.flatten.head?, g.isReference = true := by
      intro g hg
      cases groups with
      | nil => exact absurd hg (by simp)
      | cons next groups =>
        obtain ⟨⟨h, hhead, href⟩, -⟩ := List.forall_mem_cons.mp hreferences
        rw [List.flatten_cons, List.head?_append_of_ne_nil _ (by
          rintro rfl
          simp at hhead)] at hg
        rw [Option.mem_unique hg hhead]
        exact href
    rw [List.foldr_cons, List.flatten_cons, displayOrder_append _ _ _ hnext, List.reverse_append]
    exact ⟨hnumbers.trans hgroup.1, hgroup.2⟩

end ReverseNumbering

/-! ## The mirror -/

/-- What two runs say of the same frames: each numbers every frame once, with
consecutive indices, and the one in the opposite order of the other. -/
structure Mirrors (forward reverse : List (Nat × Nat)) (firstForward firstReverse : Nat)
    (frames : List CodedFrame) : Prop where
  once : (forward.map (·.1)).Perm (frames.map (·.decodeFrameIndex))
  forwardIndices : forward.map (·.2) = List.range' firstForward frames.length
  reverseIndices : reverse.map (·.2) = List.range' firstReverse frames.length
  opposite : reverse.map (·.1) = (forward.map (·.1)).reverse

/-- Any groups of frame pictures that begin with reference frames, played
forwards from a parser with nothing deferred, and backwards group by group with
every picture of a group in a coded frame buffer of its own. -/
theorem reverseNumbering_mirrors (frameBufferCount : Nat) (groups : List (List CodedFrame))
    (s : Video) (r : ReverseNumbering) (hdeferred : s.deferred = none)
    (hsecond : s.deferredSecondField = none)
    (hring : r.reverseQueuedPostDecodeSettingsRing = BufferPool.Ring.create frameBufferCount)
    (hnames : groups.flatten.map (·.decodeFrameIndex)
      = List.range' s.nextDecodeFrameIndex groups.flatten.length)
    (hframes : ∀ group ∈ groups, ∀ f ∈ group, f.picture.firstDecodeOfFrame = true)
    (hreference : ∀ group ∈ groups, ∃ f ∈ group.head?, f.picture.referenceFrame = true)
    (hroom : ∀ group ∈ groups, group.length ≤ frameBufferCount) :
    ∃ forward reverse,
      labels (s.playPictures (groups.flatten.map (·.picture))).log = labels s.log ++ forward ∧
      labels (r.playGroups groups).video.log = labels r.video.log ++ reverse ∧
      Mirrors forward reverse s.nextDisplayFrameIndex r.video.nextDisplayFrameIndex
        groups.flatten := by
  have hfirst : ∀ f ∈ groups.flatten, f.picture.firstDecodeOfFrame = true := by
    intro f hf
    obtain ⟨group, hgroup, hf⟩ := List.mem_flatten.mp hf
    exact hframes group hgroup f hf
  have hforward := Numbers.playPictures groups.flatten hdeferred hsecond hfirst hnames
  obtain ⟨hreverse, -⟩ := ReverseNumbering.playGroups_numbers groups hring hroom hframes hreference
  have hperm := displayOrder_perm CodedFrame.isReference none groups.flatten
  refine ⟨_, _, hforward.labels, hreverse.labels, ?_, ?_, ?_, ?_⟩
  · rw [map_fst_numberedFrom]
    exact hperm.map _
  · rw [map_snd_numberedFrom, hperm.length_eq]
    rfl
  · rw [map_snd_numberedFrom, List.length_reverse, hperm.length_eq]
    rfl
  · rw [map_fst_numberedFrom, map_fst_numberedFrom, List.map_reverse]

/-- A group `I B B P B`, then an open one `I B P`. -/
theorem reverseNumbering_mirrors_open_group :
    let frame (k : Nat) (referenceFrame : Bool) : CodedFrame :=
      ⟨k, ⟨structureFrame, true, 1, 1, referenceFrame, true⟩⟩
    let groups := [[frame 0 true, frame 1 false, frame 2 false, frame 3 true, frame 4 false],
      [frame 5 true, frame 6 false, frame 7 true]]
    let r : ReverseNumbering := ⟨Video.reset, BufferPool.Ring.create 8⟩
    (labels (r.playGroups groups).video.log).map (·.1) = [7, 5, 6, 3, 4, 0, 2, 1] ∧
      ∃ forward reverse,
        labels (Video.reset.playPictures (groups.flatten.map (·.picture))).log = [] ++ forward ∧
        labels (r.playGroups groups).video.log = [] ++ reverse ∧
        Mirrors forward reverse 0 0 groups.flatten := by
  intro frame groups r
  exact ⟨by decide, reverseNumbering_mirrors 8 groups Video.reset r rfl rfl rfl (by decide)
    (by decide) (by decide) (by decide)⟩

end Duckbox.FrameParser
