import Duckbox.H264.ReferenceAccounts

/-!
# Reference frames are released once

> `Ledger marked d s`: the account of every marked index is one, and the entries
> in use are in the list and hold marked indices.

A second field settles the ledger, an IDR settles everything in the list, and a
frame or first field opens an account in a free entry (`Ledger.insertAt`). What a
picture must find for that is `ReleasesOnce`: an IDR, no entry in use above its
own limit; any other picture, a free entry, and list management that releases
what is held. `Once` is the ledger between pictures, kept by every such picture
(`Once.mark`).
-/

namespace Duckbox.H264

open Duckbox.Lib

namespace References

variable {s t : References} {j : Nat} {p : MarkedPicture} {marked : List Nat} {d : Nat}

/-! ## The ledger -/

/-- Every marked index is held once or was released once, the entries in use are
in the list and hold marked indices, and no index is above `d`. -/
structure Ledger (marked : List Nat) (d : Nat) (s : References) : Prop where
  limit : s.numReferenceFrames < maxEntries
  once : ∀ x ∈ marked, s.account x = 1
  list : ∀ i, (s.entry i).usage ≠ notUsedForReference → i < s.numReferenceFrames + 1
  old : ∀ i, (s.entry i).usage ≠ notUsedForReference → (s.entry i).decodeFrameIndex ∈ marked
  marked_le : ∀ x ∈ marked, x ≤ d
  index_le : ∀ i, (s.entry i).decodeFrameIndex ≤ d
  released_le : ∀ x ∈ s.released, x ≤ d

theorem Ledger.settles (hs : Ledger marked d s) (h : Settles marked d s t) : Ledger marked d t := by
  refine ⟨h.limit.symm ▸ hs.limit, ?_, ?_, ?_, hs.marked_le, ?_, ?_⟩
  · intro x hx
    exact (h.account x hx).trans (hs.once x hx)
  · intro i hi
    rw [h.limit]
    exact hs.list i (h.used i hi)
  · intro i hi
    rw [h.index i]
    exact hs.old i (h.used i hi)
  · intro i
    rw [h.index i]
    exact hs.index_le i
  · intro x hx
    rcases h.released x hx with hold | rfl | ⟨i, rfl⟩
    · exact hs.released_le x hold
    · exact Nat.le_refl x
    · exact hs.index_le i

theorem Ledger.account_new {x : Nat} (hs : Ledger marked d s) (hmarked : x ∉ marked)
    (hreleased : x ∉ s.released) : s.account x = 0 := by
  have hheld : s.held x = 0 := by
    apply Lib.tally_eq_zero
    intro i _
    by_cases huse : (s.entry i).usage = notUsedForReference
    · exact holds_of_unused huse
    · rw [holds_of_used huse]
      exact beq_eq_false_iff_ne.mpr fun h => hmarked (h ▸ hs.old i huse)
  unfold account
  rw [hheld, List.count_eq_zero.mpr hreleased]

theorem Ledger.insertAt (hs : Ledger marked p.decodeFrameIndex s)
    (hj : j < s.numReferenceFrames + 1) (hfree : (s.entry j).usage = notUsedForReference)
    (hnew : p.decodeFrameIndex ∉ marked) (hzero : s.account p.decodeFrameIndex = 0) :
    Ledger (marked ++ [p.decodeFrameIndex]) p.decodeFrameIndex (s.insertAt p j) := by
  have hbound := Nat.lt_of_lt_of_le hj hs.limit
  have hedit := s.insertAt_edits p hbound
  have hindex : (newEntry (s.entry j) p).decodeFrameIndex = p.decodeFrameIndex := by
    unfold newEntry
    simp only
    split <;> rfl
  have husage : (newEntry (s.entry j) p).usage ≠ notUsedForReference := by
    unfold newEntry
    simp only
    split
    · exact (masks_used p.header).1
    · exact (masks_used p.header).2
  have haccount : ∀ x, (s.insertAt p j).account x
      = s.account x + (p.decodeFrameIndex == x).toNat := by
    intro x
    have htally := hedit.tally (holds x) hbound
    rw [holds_of_unused hfree, holds_of_used husage, hindex] at htally
    unfold account held
    rw [insertAt_released]
    simp only [Bool.toNat_false] at htally
    omega
  refine ⟨hedit.limit.symm ▸ hs.limit, ?_, ?_, ?_, ?_, ?_, ?_⟩
  · intro x hx
    rw [haccount]
    rcases List.mem_append.mp hx with hold | hlast
    · have hne : p.decodeFrameIndex ≠ x := fun h => hnew (h ▸ hold)
      rw [beq_eq_false_iff_ne.mpr hne, hs.once x hold]
      rfl
    · obtain rfl := List.mem_singleton.mp hlast
      rw [hzero, beq_self_eq_true]
      rfl
  · intro i hi
    rw [hedit.limit]
    by_cases hij : i = j
    · exact hij ▸ hj
    · rw [hedit.other i hij] at hi
      exact hs.list i hi
  · intro i hi
    by_cases hij : i = j
    · rw [hij, hedit.same, hindex]
      exact List.mem_append_right _ (List.mem_singleton_self _)
    · rw [hedit.other i hij] at hi ⊢
      exact List.mem_append_left _ (hs.old i hi)
  · intro x hx
    rcases List.mem_append.mp hx with hold | hlast
    · exact hs.marked_le x hold
    · exact Nat.le_of_eq (List.mem_singleton.mp hlast)
  · intro i
    by_cases hij : i = j
    · exact Nat.le_of_eq (by rw [hij, hedit.same, hindex])
    · rw [hedit.other i hij]
      exact hs.index_le i
  · intro x hx
    rw [insertAt_released] at hx
    exact hs.released_le x hx

end References

/-! ## Runs -/

/-- The table with the indices of the frames and first fields marked so far; the
next picture's index is not below `next`. -/
structure Marking where
  refs : References
  marked : List Nat
  next : Nat

namespace Marking

open References

variable {g : Marking} {p : MarkedPicture}

/-- A picture that is marked as a frame or as the first field of one. -/
def startsFrame (s : References) (p : MarkedPicture) : Bool :=
  !(s.secondField true p).secondFieldEntry && !(s.secondField true p).syntaxError

def mark (g : Marking) (p : MarkedPicture) : Marking where
  refs := g.refs.updateReferenceFrameList true p
  marked :=
    if startsFrame (g.refs.withLimit p) p then g.marked ++ [p.decodeFrameIndex] else g.marked
  next := p.decodeFrameIndex + 1

/-- Decode frame indices increase and the limit changes at an IDR only. -/
def Admits (g : Marking) (p : MarkedPicture) : Prop :=
  g.next ≤ p.decodeFrameIndex ∧ LimitFixed g.refs p

instance (g : Marking) (p : MarkedPicture) : Decidable (g.Admits p) :=
  inferInstanceAs (Decidable (_ ∧ _))

/-- The entry takes `p` for its second field. -/
def TakesSecondField (s : References) (p : MarkedPicture) (i : Nat) : Prop :=
  p.isFirstField (s.entry i) = true ∧
    (s.entry i).usage.has (p.header.masks.short ||| p.header.masks.long) = false ∧
    (s.entry i).usage.has (p.header.masks.otherShort ||| p.header.masks.otherLong) = true

instance (s : References) (p : MarkedPicture) (i : Nat) : Decidable (TakesSecondField s p i) :=
  inferInstanceAs (Decidable (_ ∧ _ ∧ _))

/-- An IDR that reaches every entry in use: no first field of its frame is in the
list and no entry above it is in use, or its first field is all that is. -/
def IdrReleasesAll (s : References) (p : MarkedPicture) : Prop :=
  (NoFirstField s p ∧ ∀ i, i < maxEntries → p.header.sps.numRefFrames + 1 ≤ i →
    (s.entry i).usage = notUsedForReference) ∨
  (p.header.fieldPicFlag = true ∧ ∃ i, i < p.header.sps.numRefFrames + 1 ∧
    TakesSecondField s p i ∧ ∀ k, k < maxEntries → k ≠ i →
      (s.entry k).usage = notUsedForReference)

instance (s : References) (p : MarkedPicture) : Decidable (IdrReleasesAll s p) :=
  inferInstanceAs (Decidable ((_ ∧ ∀ _, _ < _ → _ → _) ∨ (_ ∧ ∃ _, _ < _ ∧ _ ∧ ∀ _, _ < _ → _ → _)))

/-- An IDR reaches every entry in use; any other picture that is marked finds a
free entry, if it needs one, and its list management releases what is held. -/
def ReleasesOnce (g : Marking) (p : MarkedPicture) : Prop :=
  let s := g.refs.withLimit p
  if p.header.idr then IdrReleasesAll s p
  else
    (s.secondField true p).syntaxError = false →
      (startsFrame s p = true → s.freeEntry ≠ none) ∧
        ManagementReleasesHeld (g.mark p).marked (s.enter true p).1 p (s.enter true p).2

instance (marked : List Nat) (s : References) (p : MarkedPicture) (currentEntry : Nat) :
    Decidable (ManagementReleasesHeld marked s p currentEntry) := by
  dsimp only [ManagementReleasesHeld]
  infer_instance

instance (g : Marking) (p : MarkedPicture) : Decidable (g.ReleasesOnce p) := by
  dsimp only [ReleasesOnce]
  infer_instance

/-! ### Second fields and IDRs -/

theorem isFirstField_unused {f : ReferenceFrame} (h : f.usage = notUsedForReference) :
    p.isFirstField f = false := by
  unfold MarkedPicture.isFirstField
  rw [h]
  rfl

variable {s : References}

theorem secondField_only {i : Nat} (hf : p.header.fieldPicFlag = true)
    (hlimit : s.numReferenceFrames < maxEntries) (hi : i < s.numReferenceFrames + 1)
    (htakes : TakesSecondField s p i)
    (hothers : ∀ k, k < maxEntries → k ≠ i → (s.entry k).usage = notUsedForReference) :
    s.secondField true p = ⟨s.addSecondField true p i, i, true, false⟩ := by
  obtain ⟨hfirst, hown, hother⟩ := htakes
  have hloop : s.secondField true p
      = if i < s.numReferenceFrames + 1 then ⟨s.addSecondField true p i, i, true, false⟩
        else ⟨s, 0, false, false⟩ := by
    unfold References.secondField
    rw [if_pos hf]
    refine forUpTo_inv (P := fun k (t : SecondField) =>
      t = if i < k then ⟨s.addSecondField true p i, i, true, false⟩ else ⟨s, 0, false, false⟩)
      (if_neg (Nat.not_lt_zero i)).symm ?_
    rintro k t hk rfl
    have hbound := Nat.lt_of_lt_of_le hk hlimit
    by_cases hik : k = i
    · subst hik
      rw [if_neg (Nat.lt_irrefl k), if_pos (Nat.lt_succ_self k)]
      unfold SecondField.step
      simp [hfirst, hown, hother]
    · have hiff : i < k + 1 ↔ i < k := by omega
      simp only [hiff]
      -- the other entries are unused, before and after the second field is in
      have hunused : p.isFirstField ((if i < k then (⟨s.addSecondField true p i, i, true, false⟩ :
          SecondField) else ⟨s, 0, false, false⟩).refs.entry k) = false := by
        apply isFirstField_unused
        split
        · have hedit := s.addSecondField_edits true p (Nat.lt_of_lt_of_le hi hlimit)
          exact (congrArg ReferenceFrame.usage (hedit.other k hik)).trans (hothers k hbound hik)
        · exact hothers k hbound hik
      unfold SecondField.step
      simp only [hunused, Bool.and_false, Bool.false_eq_true, if_false]
  rw [hloop, if_pos hi]

theorem IdrReleasesAll.accepted (h : IdrReleasesAll s p)
    (hsame : s.numReferenceFrames = p.header.sps.numRefFrames) :
    (s.secondField true p).syntaxError = false := by
  have hlimit : s.numReferenceFrames < maxEntries :=
    hsame ▸ Nat.lt_succ_of_le p.header.sps.numRefFrames_le
  rcases h with ⟨hnone, _⟩ | ⟨hf, i, hi, htakes, hothers⟩
  · rw [s.secondField_none true p (hsame ▸ hnone)]
  · rw [secondField_only hf hlimit (hsame ▸ hi) htakes hothers]

/-! ### The ledger of a picture -/

/-- Between pictures: the ledger holds for every index to come, and such an index
is new. -/
structure Once (g : Marking) : Prop where
  ledger : ∀ d, g.next ≤ d → Ledger g.marked d g.refs
  fresh : ∀ d, g.next ≤ d → d ∉ g.marked ∧ d ∉ g.refs.released

theorem Once.withLimit (hg : g.Once) (ha : g.Admits p)
    (hidr : p.header.idr = true → IdrReleasesAll (g.refs.withLimit p) p) :
    Ledger g.marked p.decodeFrameIndex (g.refs.withLimit p) := by
  have hs := hg.ledger p.decodeFrameIndex ha.1
  have hlist : ∀ i, (g.refs.entry i).usage ≠ notUsedForReference →
      i < p.header.sps.numRefFrames + 1 := by
    intro i hi
    have hbound : i < maxEntries := Nat.lt_of_lt_of_le (hs.list i hi) hs.limit
    rcases ha.2 with heq | ⟨hidr', _⟩
    · exact heq ▸ hs.list i hi
    · rcases hidr hidr' with ⟨_, habove⟩ | ⟨_, j, hj, _, hothers⟩
      · by_cases hle : p.header.sps.numRefFrames + 1 ≤ i
        · exact absurd (habove i hbound hle) hi
        · exact Nat.lt_of_not_le hle
      · by_cases hij : i = j
        · exact hij ▸ hj
        · exact absurd (hothers i hbound hij) hi
  exact ⟨Nat.lt_succ_of_le p.header.sps.numRefFrames_le, hs.once, hlist, hs.old, hs.marked_le,
    hs.index_le, hs.released_le⟩

theorem insertCurrent_free (h : s.freeEntry ≠ none) :
    ∃ j, j < s.numReferenceFrames + 1 ∧ (s.entry j).usage = notUsedForReference ∧
      s.insertCurrent p = (s.insertAt p j, j) := by
  cases hfree : s.freeEntry with
  | none => exact absurd hfree h
  | some j =>
    obtain ⟨hj, hunused⟩ := firstEntry_some hfree
    refine ⟨j, hj, by simpa using hunused, ?_⟩
    unfold References.insertCurrent
    rw [hfree]

theorem releaseEveryone_free (s : References) (hlimit : s.numReferenceFrames < maxEntries) :
    (s.releaseEveryone true).freeEntry ≠ none := by
  obtain ⟨hsame, hentries⟩ := s.releaseEveryone_entries true hlimit
  intro hnone
  have hzero := firstEntry_none (i := 0) hnone (Nat.succ_pos _)
  rw [(hentries 0).1, if_pos (Nat.succ_pos _)] at hzero
  exact absurd hzero (by decide)

/-- The table that a new frame or first field is inserted in. -/
def beforeInsertion (s : References) (p : MarkedPicture) : References :=
  if p.header.idr then s.releaseEveryone true else s

theorem enter_starts (hlimit : s.numReferenceFrames < maxEntries)
    (hstarts : startsFrame s p = true) :
    s.enter true p = (beforeInsertion s p).insertCurrent p := by
  unfold startsFrame at hstarts
  rw [Bool.and_eq_true, Bool.not_eq_true', Bool.not_eq_true'] at hstarts
  have hrefs := (settles_secondField hlimit p (List.not_mem_nil : p.decodeFrameIndex ∉ [])).2.2 hstarts.1
  unfold References.enter beforeInsertion
  simp only
  rw [hstarts.1, hrefs]
  rfl

variable {marked : List Nat}

theorem starts_ledger (hs : Ledger marked p.decodeFrameIndex s) (hstarts : startsFrame s p = true)
    (hnew : p.decodeFrameIndex ∉ marked ∧ p.decodeFrameIndex ∉ s.released)
    (hfree : p.header.idr = false → s.freeEntry ≠ none) :
    Settles marked p.decodeFrameIndex s (beforeInsertion s p) ∧
    ∃ j, j < s.numReferenceFrames + 1 ∧
      ((beforeInsertion s p).entry j).usage = notUsedForReference ∧
      s.enter true p = ((beforeInsertion s p).insertAt p j, j) ∧
      Ledger (marked ++ [p.decodeFrameIndex]) p.decodeFrameIndex (s.enter true p).1 := by
  have hsettles : ∀ tracked, Settles tracked p.decodeFrameIndex s (beforeInsertion s p) := by
    intro tracked
    unfold beforeInsertion
    split
    · exact settles_releaseEveryone hs.limit tracked
    · exact Settles.refl s
  have hfree' : (beforeInsertion s p).freeEntry ≠ none := by
    unfold beforeInsertion
    split
    · exact releaseEveryone_free s hs.limit
    · next hidr => exact hfree (by simpa using hidr)
  have hbefore := hs.settles (hsettles marked)
  have hzero : (beforeInsertion s p).account p.decodeFrameIndex = 0 := by
    rw [(hsettles [p.decodeFrameIndex]).account _ (List.mem_singleton_self _)]
    exact hs.account_new hnew.1 hnew.2
  obtain ⟨j, hj, hunused, hinsert⟩ := insertCurrent_free (p := p) hfree'
  have henter := (enter_starts hs.limit hstarts).trans hinsert
  refine ⟨hsettles marked, j, (hsettles marked).limit ▸ hj, hunused, henter, ?_⟩
  rw [henter]
  exact hbefore.insertAt hj hunused hnew.1 hzero

theorem enter_second (hlimit : s.numReferenceFrames < maxEntries)
    (hnew : p.decodeFrameIndex ∉ marked)
    (hsecond : (s.secondField true p).secondFieldEntry = true) :
    Settles marked p.decodeFrameIndex s (s.enter true p).1 ∧
      (s.enter true p).2 < s.numReferenceFrames + 1 := by
  obtain ⟨hsettles, hcur, _⟩ := settles_secondField hlimit p hnew
  unfold References.enter
  simp only
  rw [if_pos hsecond]
  exact ⟨hsettles, hcur⟩

/-- Held by one entry in use, or released once. -/
def HeldOrReleased (s : References) (x : Nat) : Prop :=
  (s.held x = 1 ∧ s.released.count x = 0) ∨ (s.held x = 0 ∧ s.released.count x = 1)

theorem heldOrReleased_of_ledger {d x : Nat} (hs : Ledger marked d s) (hx : x ∈ marked) :
    HeldOrReleased s x := by
  have honce := hs.once x hx
  unfold account at honce
  unfold HeldOrReleased
  omega

/-- What a picture leaves: an index held after an IDR is its own or its first
field's; no other picture's entry in use gets another index; and a new frame is
inserted beside the entries in use. -/
structure Leaves (g : Marking) (p : MarkedPicture) : Prop where
  idr : p.header.idr = true → ∀ i, ((g.mark p).refs.entry i).usage ≠ notUsedForReference →
    ((g.mark p).refs.entry i).decodeFrameIndex = p.decodeFrameIndex ∨
      p.isFirstField (g.refs.entry i) = true
  kept : p.header.idr = false → ∀ i, (g.refs.entry i).usage ≠ notUsedForReference →
    ((g.mark p).refs.entry i).decodeFrameIndex = (g.refs.entry i).decodeFrameIndex
  inserted : startsFrame (g.refs.withLimit p) p = true →
    let r := (g.refs.withLimit p).enter true p
    (r.1.entry r.2).decodeFrameIndex = p.decodeFrameIndex ∧
      (p.header.idr = false → ∀ i, (g.refs.entry i).usage ≠ notUsedForReference →
        i ≠ r.2 ∧ r.1.entry i = g.refs.entry i)

theorem mark_rejected (hs : Ledger g.marked p.decodeFrameIndex (g.refs.withLimit p))
    (hnew : p.decodeFrameIndex ∉ g.marked) (hr : g.ReleasesOnce p)
    (herror : ((g.refs.withLimit p).secondField true p).syntaxError = true) :
    Ledger (g.mark p).marked p.decodeFrameIndex (g.mark p).refs ∧ Leaves g p := by
  have hstarts : startsFrame (g.refs.withLimit p) p = false := by
    unfold startsFrame
    rw [herror, Bool.not_true, Bool.and_false]
  have hmarked : (g.mark p).marked = g.marked := by
    unfold mark
    rw [hstarts]
    rfl
  have hrefs : (g.mark p).refs = ((g.refs.withLimit p).secondField true p).refs := by
    show (g.refs.withLimit p).markReferencePictures true p = _
    unfold markReferencePictures
    simp only
    rw [if_pos herror]
  have hidr : p.header.idr = false := by
    cases h : p.header.idr with
    | false => rfl
    | true =>
      unfold ReleasesOnce at hr
      simp only [h, if_true] at hr
      rw [hr.accepted rfl] at herror
      exact absurd herror Bool.false_ne_true
  have hsettles := (settles_secondField hs.limit p hnew).1
  refine ⟨?_, ?_, ?_, ?_⟩
  · rw [hmarked, hrefs]
    exact hs.settles hsettles
  · intro h
    rw [hidr] at h
    exact absurd h Bool.false_ne_true
  · intro _ i _
    rw [hrefs]
    exact hsettles.index i
  · intro h
    rw [hstarts] at h
    exact absurd h Bool.false_ne_true

theorem mark_refs (herror : ((g.refs.withLimit p).secondField true p).syntaxError = false) :
    (g.mark p).refs = ((g.refs.withLimit p).enter true p).1.manage true p
      ((g.refs.withLimit p).enter true p).2 := by
  show (g.refs.withLimit p).markReferencePictures true p = _
  unfold markReferencePictures
  simp only
  rw [if_neg (by rw [herror]; exact Bool.false_ne_true)]

theorem mark_second (hs : Ledger g.marked p.decodeFrameIndex (g.refs.withLimit p))
    (hnew : p.decodeFrameIndex ∉ g.marked) (hr : g.ReleasesOnce p)
    (herror : ((g.refs.withLimit p).secondField true p).syntaxError = false)
    (hsecond : ((g.refs.withLimit p).secondField true p).secondFieldEntry = true) :
    Ledger (g.mark p).marked p.decodeFrameIndex (g.mark p).refs ∧ Leaves g p := by
  have hstarts : startsFrame (g.refs.withLimit p) p = false := by
    unfold startsFrame
    rw [hsecond, Bool.not_true, Bool.false_and]
  have hmarked : (g.mark p).marked = g.marked := by
    unfold mark
    rw [hstarts]
    rfl
  obtain ⟨henter, hcur⟩ := enter_second hs.limit hnew hsecond
  have hmanage : Settles g.marked p.decodeFrameIndex ((g.refs.withLimit p).enter true p).1
      (g.mark p).refs := by
    rw [mark_refs herror]
    refine settles_manage (henter.limit.symm ▸ hs.limit) (henter.limit.symm ▸ hcur) ?_
    intro hidr
    unfold ReleasesOnce at hr
    simp only [hidr, Bool.false_eq_true, if_false] at hr
    rw [← hmarked]
    exact (hr herror).2
  have hsettles := henter.trans hmanage
  refine ⟨?_, ?_, ?_, ?_⟩
  · rw [hmarked]
    exact hs.settles hsettles
  · intro hidr i hi
    unfold ReleasesOnce at hr
    simp only [hidr, if_true] at hr
    rcases hr with ⟨hnone, _⟩ | ⟨_, k, _, htakes, hothers⟩
    · rw [secondField_none (g.refs.withLimit p) true p hnone] at hsecond
      exact absurd hsecond Bool.false_ne_true
    · have huse := hsettles.used i hi
      have hbound : i < maxEntries := Nat.lt_of_lt_of_le (hs.list i huse) hs.limit
      by_cases hik : i = k
      · exact .inr (hik ▸ htakes.1)
      · exact absurd (hothers i hbound hik) huse
  · intro _ i _
    exact hsettles.index i
  · intro h
    rw [hstarts] at h
    exact absurd h Bool.false_ne_true

theorem mark_starts (hs : Ledger g.marked p.decodeFrameIndex (g.refs.withLimit p))
    (hnew : p.decodeFrameIndex ∉ g.marked ∧ p.decodeFrameIndex ∉ g.refs.released)
    (hr : g.ReleasesOnce p) (hstarts : startsFrame (g.refs.withLimit p) p = true) :
    Ledger (g.mark p).marked p.decodeFrameIndex (g.mark p).refs ∧ Leaves g p := by
  have hmarked : (g.mark p).marked = g.marked ++ [p.decodeFrameIndex] := by
    unfold mark
    rw [hstarts]
    rfl
  have herror : ((g.refs.withLimit p).secondField true p).syntaxError = false := by
    unfold startsFrame at hstarts
    rw [Bool.and_eq_true, Bool.not_eq_true', Bool.not_eq_true'] at hstarts
    exact hstarts.2
  have hrest : p.header.idr = false → (g.refs.withLimit p).freeEntry ≠ none ∧
      ManagementReleasesHeld (g.mark p).marked ((g.refs.withLimit p).enter true p).1 p
        ((g.refs.withLimit p).enter true p).2 := by
    intro hidr
    unfold ReleasesOnce at hr
    simp only [hidr, Bool.false_eq_true, if_false] at hr
    exact ⟨(hr herror).1 hstarts, (hr herror).2⟩
  obtain ⟨hbefore, j, hj, hunused, henter, hledger⟩ :=
    starts_ledger hs hstarts hnew fun hidr => (hrest hidr).1
  have hbound : j < maxEntries := Nat.lt_of_lt_of_le hj hs.limit
  have hedit := (beforeInsertion (g.refs.withLimit p) p).insertAt_edits p hbound
  have hcurrent : (((g.refs.withLimit p).enter true p).1.entry
      ((g.refs.withLimit p).enter true p).2).decodeFrameIndex = p.decodeFrameIndex := by
    rw [henter]
    show (((beforeInsertion (g.refs.withLimit p) p).insertAt p j).entry j).decodeFrameIndex = _
    rw [hedit.same]
    unfold newEntry
    simp only
    split <;> rfl
  have hlimit : ((g.refs.withLimit p).enter true p).1.numReferenceFrames
      = (g.refs.withLimit p).numReferenceFrames := by
    rw [henter]
    exact hedit.limit.trans hbefore.limit
  have hmanage : Settles (g.mark p).marked p.decodeFrameIndex
      ((g.refs.withLimit p).enter true p).1 (g.mark p).refs := by
    rw [mark_refs herror]
    refine settles_manage hledger.limit ?_ fun hidr => (hrest hidr).2
    rw [hlimit, henter]
    exact hj
  -- an entry in use before is not the one the new picture gets
  have hbeside : p.header.idr = false → ∀ i, (g.refs.entry i).usage ≠ notUsedForReference →
      i ≠ ((g.refs.withLimit p).enter true p).2 ∧
        ((g.refs.withLimit p).enter true p).1.entry i = g.refs.entry i := by
    intro hidr i hi
    have hsame : beforeInsertion (g.refs.withLimit p) p = g.refs.withLimit p := by
      unfold beforeInsertion
      rw [hidr]
      rfl
    rw [hsame] at hunused hedit henter
    have hij : i ≠ j := by
      rintro rfl
      exact hi hunused
    rw [henter]
    exact ⟨hij, hedit.other i hij⟩
  refine ⟨?_, ?_, ?_, fun _ => ⟨hcurrent, hbeside⟩⟩
  · rw [← hmarked] at hledger
    exact hledger.settles hmanage
  · intro hidr i hi
    have huse := hmanage.used i hi
    rw [hmanage.index i]
    by_cases hij : i = j
    · rw [hij]
      have hcur : ((g.refs.withLimit p).enter true p).2 = j := by rw [henter]
      exact .inl (hcur ▸ hcurrent)
    · rw [henter] at huse
      have huse' : ((beforeInsertion (g.refs.withLimit p) p).entry i).usage
          ≠ notUsedForReference := by
        rwa [hedit.other i hij] at huse
      have hlist := hs.list i (hbefore.used i huse')
      have hreleased : ((beforeInsertion (g.refs.withLimit p) p).entry i).usage
          = notUsedForReference := by
        unfold beforeInsertion
        rw [if_pos hidr, ((releaseEveryone_entries _ true hs.limit).2 i).1, if_pos hlist]
      exact absurd hreleased huse'
  · intro hidr i hi
    rw [hmanage.index i, (hbeside hidr i hi).2]

theorem Once.mark (hg : g.Once) (ha : g.Admits p) (hr : g.ReleasesOnce p) :
    (g.mark p).Once ∧ Leaves g p := by
  have hnew := hg.fresh p.decodeFrameIndex ha.1
  have hs : Ledger g.marked p.decodeFrameIndex (g.refs.withLimit p) := by
    refine hg.withLimit ha ?_
    intro hidr
    unfold ReleasesOnce at hr
    simp only [hidr, if_true] at hr
    exact hr
  have hmark : Ledger (g.mark p).marked p.decodeFrameIndex (g.mark p).refs ∧ Leaves g p := by
    cases herror : ((g.refs.withLimit p).secondField true p).syntaxError with
    | true => exact mark_rejected hs hnew.1 hr herror
    | false =>
      cases hsecond : ((g.refs.withLimit p).secondField true p).secondFieldEntry with
      | true => exact mark_second hs hnew.1 hr herror hsecond
      | false =>
        have hstarts : startsFrame (g.refs.withLimit p) p = true := by
          unfold startsFrame
          rw [herror, hsecond]
          rfl
        exact mark_starts hs hnew hr hstarts
  obtain ⟨hledger, hleaves⟩ := hmark
  refine ⟨⟨?_, ?_⟩, hleaves⟩
  · intro d hd
    have hle : p.decodeFrameIndex ≤ d := Nat.le_of_succ_le hd
    exact ⟨hledger.limit, hledger.once, hledger.list, hledger.old,
      fun x hx => Nat.le_trans (hledger.marked_le x hx) hle,
      fun i => Nat.le_trans (hledger.index_le i) hle,
      fun x hx => Nat.le_trans (hledger.released_le x hx) hle⟩
  · intro d hd
    constructor
    · intro hmem
      exact absurd (hledger.marked_le d hmem) (Nat.not_le_of_lt hd)
    · intro hmem
      exact absurd (hledger.released_le d hmem) (Nat.not_le_of_lt hd)

/-- Nothing is marked yet. -/
def start (sps : SequenceParameterSet) : Marking := ⟨References.start sps, [], 0⟩

theorem Once.start (sps : SequenceParameterSet) : (start sps).Once := by
  have hentry : ∀ i, (References.start sps).entry i = ReferenceFrame.zero :=
    fun i => Table.read_replicate i
  refine ⟨fun d _ => ⟨Nat.lt_succ_of_le sps.numRefFrames_le, ?_, ?_, ?_, ?_, ?_, ?_⟩, ?_⟩
  · intro x hx
    cases hx
  · intro i hi
    exact absurd (congrArg ReferenceFrame.usage (hentry i)) hi
  · intro i hi
    exact absurd (congrArg ReferenceFrame.usage (hentry i)) hi
  · intro x hx
    cases hx
  · intro i
    have hzero : ((References.start sps).entry i).decodeFrameIndex = 0 :=
      congrArg ReferenceFrame.decodeFrameIndex (hentry i)
    exact hzero ▸ Nat.zero_le d
  · intro x hx
    cases hx
  · intro d _
    exact ⟨List.not_mem_nil, List.not_mem_nil⟩

/-- **Every marked index is held by one entry in use or was released once**, after
every picture of every run that releases what is held; the picture's own effect
on the table is as `Leaves` says. -/
theorem referenceFrames_released_once (sps : SequenceParameterSet) {ps : List MarkedPicture}
    {p : MarkedPicture} (hadmits : Along mark Admits (start sps) ps)
    (hreleases : Along mark ReleasesOnce (start sps) ps)
    (hp : (ps.foldl mark (start sps)).Admits p)
    (hp' : (ps.foldl mark (start sps)).ReleasesOnce p) :
    let g := ps.foldl mark (start sps)
    (∀ x ∈ (g.mark p).marked, HeldOrReleased (g.mark p).refs x) ∧ Leaves g p := by
  have honce := foldl_inv (P := Once)
    (fun {g p} (hok : g.Admits p ∧ g.ReleasesOnce p) hg => (hg.mark hok.1 hok.2).1) ps
    (hadmits.and hreleases) (Once.start sps)
  obtain ⟨hg, hleaves⟩ := honce.mark hp hp'
  refine ⟨?_, hleaves⟩
  intro x hx
  exact heldOrReleased_of_ledger (hg.ledger _ (Nat.le_refl _)) hx

/-- Four frames, a fifth that fills the list and clears it, another and an IDR. -/
theorem referenceFrames_released_once_full_clear :
    let ps := [shortPicture true 0 [] 0, shortPicture false 1 [] 1, shortPicture false 2 [] 2,
      shortPicture false 3 [] 3, shortPicture false 4 [.clear] 4, shortPicture false 1 [] 5]
    let p := shortPicture true 0 [] 6
    let g := ps.foldl mark (start shortSps)
    (∀ x ∈ (g.mark p).marked, HeldOrReleased (g.mark p).refs x) ∧ Leaves g p :=
  referenceFrames_released_once shortSps (by decide +kernel) (by decide +kernel)
    (by decide +kernel) (by decide +kernel)

/-- A clear on the second frame: the three entries never used are released with
the IDR's index 0 in them, so that it is released four times. -/
theorem referenceFrames_released_again_by_clear :
    let ps := [shortPicture true 0 [] 0, shortPicture false 1 [.clear] 1]
    let g := ps.foldl mark (start shortSps)
    Along mark Admits (start shortSps) ps ∧ 0 ∈ g.marked ∧ g.refs.released = [0, 0, 0, 0] ∧
      ¬ HeldOrReleased g.refs 0 := by
  unfold HeldOrReleased
  decide +kernel

end Marking

end Duckbox.H264
