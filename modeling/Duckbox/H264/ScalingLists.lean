import Duckbox.H264.ParameterSetsAtomic
import Mathlib.Data.List.GetD

/-!
# Scaling lists

The scaling lists of a parameter set by the standard, and that the readers of
sequence and of picture parameter sets leave these in the header.

By the standard a list is not coded, or coded by differences in zig-zag order up
to a next scale of 0, from where the last is repeated; a first of 0 stands for
the default list. What is not coded is the list before it, or for the first of a
kind the list that fallback rule A or B names. Here a matrix is the syntax
elements that a source holds at a position (`ScalingMatrixSyntax.CodedAt`), and
its lists are in raster order (`ScalingMatrixSyntax.derived4x4`,
`ScalingMatrixSyntax.derived8x8`).

Main result: `scalingLists_standard`.
-/

namespace Duckbox.H264.Coded

open Duckbox.Lib Duckbox.FrameParser Duckbox.BufferPool
open Duckbox.Lib.Parse Duckbox.FrameParser.HeaderParser

/-! ## Orders -/

/-- The places in raster order of the cells of a square, in zig-zag order: one
diagonal after the other, down the odd ones and up the even ones. -/
def zigZag (side : Nat) : List Nat :=
  (List.range (2 * side - 1)).flatMap fun diagonal =>
    let rows := (List.range side).filter fun y => y ≤ diagonal && diagonal - y < side
    let down := rows.map fun y => y * side + (diagonal - y)
    if diagonal % 2 = 1 then down else down.reverse

/-- Values in zig-zag order, in raster order. -/
def raster {n : Nat} (side : Nat) (values : Nat → Word) : Vector Word n :=
  Vector.ofFn fun p => values ((zigZag side).idxOf p.val)

/-- A scan has each place once, in zig-zag order. -/
structure ZigZag {n : Nat} (side : Nat) (scan : List (Fin n)) : Prop where
  order : scan.map Fin.val = zigZag side
  nodup : scan.Nodup
  mem : ∀ p, p ∈ scan

theorem zigZag_zzScan4x4 : ZigZag 4 zzScan4x4 := ⟨by decide, by decide, by decide⟩

theorem zigZag_zzScan8x8 : ZigZag 8 zzScan8x8 := ⟨by decide, by decide, by decide⟩

section Scans

variable {n side : Nat} {scan : List (Fin n)} {values : List Word}

theorem ZigZag.length (h : ZigZag side scan) : scan.length = n := by
  have hperm : scan.Perm (List.finRange n) :=
    (List.perm_ext_iff_of_nodup h.nodup (List.nodup_finRange n)).mpr fun p =>
      iff_of_true (h.mem p) (List.mem_finRange p)
  rw [hperm.length_eq, List.length_finRange]

theorem getElem_putScanned (hnodup : scan.Nodup) (hlength : values.length = scan.length)
    (list : Vector Word n) (p : Fin n) :
    (putScanned scan values list)[p] =
      if p ∈ scan then values.getD (scan.idxOf p) 0 else list[p] := by
  induction scan generalizing values list with
  | nil => rfl
  | cons q scan ih =>
    obtain ⟨hq, hnodup⟩ := List.nodup_cons.mp hnodup
    cases values with
    | nil => exact absurd hlength (by simp)
    | cons v values =>
      have hstep : putScanned (q :: scan) (v :: values) list =
        putScanned scan values (list.set q v) := rfl
      rw [hstep, ih hnodup (by simpa using hlength)]
      by_cases hpq : p = q
      · subst hpq
        rw [if_neg hq, if_pos List.mem_cons_self, List.idxOf_cons_self]
        simp
      · rw [List.idxOf_cons_ne _ (Ne.symm hpq)]
        simp [hpq, Fin.val_ne_of_ne (Ne.symm hpq)]

theorem putScanned_eq_raster (h : ZigZag side scan) (hlength : values.length = n)
    {f : Nat → Word} (hf : ∀ j, j < n → values.getD j 0 = f j) (list : Vector Word n) :
    putScanned scan values list = raster side f := by
  refine Vector.ext fun p hp => ?_
  have hget := getElem_putScanned h.nodup (hlength.trans h.length.symm) list ⟨p, hp⟩
  rw [if_pos (h.mem _)] at hget
  refine hget.trans ?_
  have hidx : (scan.map Fin.val).idxOf p = scan.idxOf ⟨p, hp⟩ := by
    unfold List.idxOf
    rw [List.findIdx_map]
    congr 1
    funext q
    simp [Fin.ext_iff]
  have hlt : scan.idxOf ⟨p, hp⟩ < n :=
    (List.idxOf_lt_length_of_mem (h.mem _)).trans_eq h.length
  rw [hf _ hlt]
  simp [raster, ← h.order, hidx]

end Scans

/-! ## Lists by the standard -/

def defaultIntra4x4 : Vector Word 16 :=
  #v[6, 13, 20, 28,
     13, 20, 28, 32,
     20, 28, 32, 37,
     28, 32, 37, 42]

def defaultInter4x4 : Vector Word 16 :=
  #v[10, 14, 20, 24,
     14, 20, 24, 27,
     20, 24, 27, 30,
     24, 27, 30, 34]

def defaultIntra8x8 : Vector Word 64 :=
  #v[6, 10, 13, 16, 18, 23, 25, 27,
     10, 11, 16, 18, 23, 25, 27, 29,
     13, 16, 18, 23, 25, 27, 29, 31,
     16, 18, 23, 25, 27, 29, 31, 33,
     18, 23, 25, 27, 29, 31, 33, 36,
     23, 25, 27, 29, 31, 33, 36, 38,
     25, 27, 29, 31, 33, 36, 38, 40,
     27, 29, 31, 33, 36, 38, 40, 42]

def defaultInter8x8 : Vector Word 64 :=
  #v[9, 13, 15, 17, 19, 21, 22, 24,
     13, 13, 17, 19, 21, 22, 24, 25,
     15, 17, 19, 21, 22, 24, 25, 27,
     17, 19, 21, 22, 24, 25, 27, 28,
     19, 21, 22, 24, 25, 27, 28, 30,
     21, 22, 24, 25, 27, 28, 30, 32,
     22, 24, 25, 27, 28, 30, 32, 33,
     24, 25, 27, 28, 30, 32, 33, 35]

/-- `nextScale`. -/
def nextScale (last delta : ℤ) : ℤ := (last + delta + 256) % 256

/-- The scales before a next scale of 0. -/
def scales : ℤ → List ℤ → List ℤ
  | _, [] => []
  | last, delta :: deltas =>
    if nextScale last delta = 0 then []
    else nextScale last delta :: scales (nextScale last delta) deltas

/-- The differences are those of so many scales, or end with a next scale of 0. -/
def Complete : Nat → ℤ → List ℤ → Prop
  | 0, _, deltas => deltas = []
  | _ + 1, _, [] => False
  | n + 1, last, delta :: deltas =>
    if nextScale last delta = 0 then deltas = [] else Complete n (nextScale last delta) deltas

/-- The elements of `scaling_list( )`. -/
structure ScalingListSyntax (n : Nat) where
  deltaScale : List ℤ
  inRange : ∀ delta ∈ deltaScale, -128 ≤ delta ∧ delta ≤ 127
  complete : Complete n 8 deltaScale

/-- The list that is coded, where there is a default list for its kind. -/
def ScalingListSyntax.list {n : Nat} (side : Nat) (default : Vector Word n)
    (l : ScalingListSyntax n) : Vector Word n :=
  let coded := scales 8 l.deltaScale
  if coded = [] then default
  else raster side fun j => BitVec.ofInt 32 (coded.getD j (coded.getLastD 0))

/-- The lists of a scaling matrix that are coded. -/
structure ScalingMatrixSyntax where
  list4x4 : Fin 6 → Option (ScalingListSyntax 16)
  list8x8 : Fin 2 → Option (ScalingListSyntax 64)

namespace ScalingMatrixSyntax

def default4x4 (i : Fin 6) : Vector Word 16 := if i.val < 3 then defaultIntra4x4 else defaultInter4x4

def default8x8 (i : Fin 2) : Vector Word 64 := if i = 0 then defaultIntra8x8 else defaultInter8x8

/-- Fallback rule A. -/
def ruleA : FallbackRule := ⟨defaultIntra4x4, defaultInter4x4, defaultIntra8x8, defaultInter8x8⟩

/-- Fallback rule B, from the lists of a sequence parameter set. -/
def ruleB (lists : ScalingMatrix) : FallbackRule where
  intra4x4 := lists.scalingList4x4.get 0
  inter4x4 := lists.scalingList4x4.get 3
  intra8x8 := lists.scalingList8x8.get 0
  inter8x8 := lists.scalingList8x8.get 1

/-- Of the two, for a picture parameter set. -/
def ruleFor (sps : SequenceParameterSetHeader) : FallbackRule :=
  if sps.seqScalingMatrixPresentFlag = 0 then ruleA else ruleB sps.scaling

variable (m : ScalingMatrixSyntax) (rule : FallbackRule)

def derived4x4 (i : Fin 6) : Vector Word 16 :=
  match m.list4x4 i with
  | some l => l.list 4 (default4x4 i)
  | none =>
    if i = 0 then rule.intra4x4
    else if i = 3 then rule.inter4x4
    else derived4x4 (i - 1)
termination_by i

def derived8x8 (i : Fin 2) : Vector Word 64 :=
  match m.list8x8 i with
  | some l => l.list 8 (default8x8 i)
  | none => if i = 0 then rule.intra8x8 else rule.inter8x8

end ScalingMatrixSyntax

/-! ## Elements in a source -/

section Coded

variable {σ : Type} [BitSource σ] {n : Nat}

/-- From one position to another there are `delta_scale` elements. -/
def DeltasAt : List ℤ → σ → σ → Prop
  | [], s, s' => s' = s
  | delta :: deltas, s, s' => (se s).1 = BitVec.ofInt 32 delta ∧ DeltasAt deltas (se s).2 s'

/-- A present flag, and the list if it is set. -/
def ListAt : Option (ScalingListSyntax n) → σ → σ → Prop
  | none, s, s' => (u 1 s).1 = 0 ∧ s' = (u 1 s).2
  | some l, s, s' => (u 1 s).1 ≠ 0 ∧ DeltasAt l.deltaScale (u 1 s).2 s'

/-- A scaling matrix with or without lists of 64; list `i` ends where list `i + 1` begins. -/
def ScalingMatrixSyntax.CodedAt (m : ScalingMatrixSyntax) (lists8x8 : Bool) (s : σ) : Prop :=
  ∃ position : Nat → σ, position 0 = s ∧
    (∀ i : Fin 6, ListAt (m.list4x4 i) (position i) (position (i + 1))) ∧
    (lists8x8 = true →
      ∀ i : Fin 2, ListAt (m.list8x8 i) (position (i + 6)) (position (i + 7)))

end Coded

/-! ## Reading a list -/

section List

variable {σ M : Type} [BitSource σ] {n : Nat}

variable {last : ℤ}

theorem srem_nextScale {delta : ℤ} (hlast : 0 < last ∧ last < 256)
    (hdelta : -128 ≤ delta ∧ delta ≤ 127) :
    (BitVec.ofInt 32 last + BitVec.ofInt 32 delta + 256).srem 256 =
      BitVec.ofInt 32 (nextScale last delta) := by
  have hsum : BitVec.ofInt 32 last + BitVec.ofInt 32 delta + 256 =
      BitVec.ofInt 32 (last + delta + 256) := by
    rw [BitVec.ofInt_add, BitVec.ofInt_add]
    rfl
  refine BitVec.eq_of_toInt_eq ?_
  rw [hsum, BitVec.toInt_srem, BitVec.toInt_ofInt, BitVec.toInt_ofInt, nextScale]
  have h256 : (256 : BitVec 32).toInt = 256 := by decide
  rw [h256, Int.tmod_eq_emod_of_nonneg]
  all_goals simp only [Int.bmod]; omega

theorem nextScale_range (last delta : ℤ) :
    0 ≤ nextScale last delta ∧ nextScale last delta < 256 := by
  unfold nextScale
  omega

theorem ofInt_ne_zero {scale : ℤ} (h : 0 < scale ∧ scale < 256) :
    (BitVec.ofInt 32 scale != 0) = true := by
  refine bne_iff_ne.mpr fun heq => ?_
  have htoInt := congrArg BitVec.toInt heq
  rw [BitVec.toInt_ofInt, show (0 : BitVec 32).toInt = 0 by decide] at htoInt
  simp only [Int.bmod] at htoInt
  omega

/-- The scales that are coded, and the last again for the others. -/
def repeated (size : Nat) (last : ℤ) (deltas : List ℤ) : List Word :=
  (scales last deltas).map (BitVec.ofInt 32) ++
    List.replicate (size - (scales last deltas).length)
      (BitVec.ofInt 32 ((scales last deltas).getLastD last))

theorem yields_scalingPasses_zero (scan : List (Fin n)) (j : Nat) (last : Word)
    (s : HeaderState σ (ScalingList n) M) :
    Yields (scalingPasses scan j last 0) s ()
      { s with
        header.scalingList :=
          putScanned scan (List.replicate scan.length last) s.header.scalingList } := by
  induction scan generalizing j s with
  | nil => rfl
  | cons position scan ih =>
    exact ih (j + 1) { s with header.scalingList := s.header.scalingList.set position last }

variable {size : Nat} {deltas : List ℤ}

theorem repeated_of_zero {delta : ℤ} (h : nextScale last delta = 0) :
    repeated (size + 1) last (delta :: deltas) =
      List.replicate (size + 1) (BitVec.ofInt 32 last) := by
  simp [repeated, scales, h]

theorem repeated_of_ne {delta : ℤ} (h : nextScale last delta ≠ 0) :
    repeated (size + 1) last (delta :: deltas) =
      BitVec.ofInt 32 (nextScale last delta) :: repeated size (nextScale last delta) deltas := by
  simp [repeated, scales, h, List.getLast?_cons]

variable {s : HeaderState σ (ScalingList n) M}

theorem scalingPasses_cons {position : Fin n} {scan : List (Fin n)} {j : Nat} {last next : Word}
    (hlast : (last != 0) = true) (hnext : (last + (se s.bits).1 + 256).srem 256 = next) :
    scalingPasses (position :: scan) j last last s =
      scalingPasses scan (j + 1) (if next == 0 then last else next) next
        { bits := (se s.bits).2
          header.scalingList :=
            s.header.scalingList.set position (if next == 0 then last else next) position.isLt
          header.useDefaultScalingMatrixFlag := if j == 0 && next == 0 then 1 else 0
          members := s.members } := by
  subst hnext
  conv_lhs => unfold scalingPasses
  rw [if_pos hlast]
  rfl

theorem yields_scalingPasses {scan : List (Fin n)} {b : σ} (j : Nat) (hlast : 0 < last ∧ last < 256)
    (hrange : ∀ delta ∈ deltas, -128 ≤ delta ∧ delta ≤ 127)
    (hcomplete : Complete scan.length last deltas) (hcoded : DeltasAt deltas s.bits b) :
    Yields (scalingPasses scan j (BitVec.ofInt 32 last) (BitVec.ofInt 32 last)) s ()
      { bits := b
        header.scalingList :=
          putScanned scan (repeated scan.length last deltas) s.header.scalingList
        header.useDefaultScalingMatrixFlag :=
          if deltas = [] then s.header.useDefaultScalingMatrixFlag
          else if j = 0 ∧ scales last deltas = [] then 1 else 0
        members := s.members } := by
  induction scan generalizing j last deltas s with
  | nil =>
    obtain rfl : deltas = [] := hcomplete
    obtain rfl : b = s.bits := hcoded
    rfl
  | cons position scan ih =>
    cases deltas with
    | nil => exact hcomplete.elim
    | cons delta deltas =>
      obtain ⟨hdelta, hcoded⟩ := hcoded
      have hnext := srem_nextScale hlast (hrange delta List.mem_cons_self)
      rw [← hdelta] at hnext
      unfold Yields
      rw [scalingPasses_cons (ofInt_ne_zero hlast) hnext]
      replace hcomplete : if nextScale last delta = 0 then deltas = []
        else Complete scan.length (nextScale last delta) deltas := hcomplete
      by_cases hzero : nextScale last delta = 0
      · rw [if_pos hzero] at hcomplete
        subst hcomplete
        obtain rfl : b = (se s.bits).2 := hcoded
        rw [List.length_cons, repeated_of_zero hzero, hzero]
        refine (yields_scalingPasses_zero scan (j + 1) _ _).trans ?_
        have hscales : scales last [delta] = [] := if_pos hzero
        have hflag : (j == 0 && BitVec.ofInt 32 0 == 0) = decide (j = 0) := by cases j <;> rfl
        rw [hscales, hflag]
        simp [putScanned, List.replicate_succ]
      · rw [if_neg hzero] at hcomplete
        have hrange' := nextScale_range last delta
        have hne := ofInt_ne_zero ⟨lt_of_le_of_ne hrange'.1 (Ne.symm hzero), hrange'.2⟩
        have hbeq : (BitVec.ofInt 32 (nextScale last delta) == 0) = false := by simpa using hne
        have hscales : scales last (delta :: deltas) ≠ [] := by simp [scales, hzero]
        rw [List.length_cons, repeated_of_ne hzero, hbeq]
        refine (ih (j + 1) ⟨lt_of_le_of_ne hrange'.1 (Ne.symm hzero), hrange'.2⟩
          (fun d hd => hrange d (List.mem_cons_of_mem _ hd)) hcomplete hcoded).trans ?_
        simp [putScanned, hscales]

theorem length_scales_le (h : Complete size last deltas) : (scales last deltas).length ≤ size := by
  induction size generalizing last deltas with
  | zero =>
    obtain rfl : deltas = [] := h
    exact Nat.zero_le _
  | succ size ih =>
    cases deltas with
    | nil => exact h.elim
    | cons delta deltas =>
      replace h : if nextScale last delta = 0 then deltas = []
        else Complete size (nextScale last delta) deltas := h
      unfold scales
      split at h
      · next hzero =>
        rw [if_pos hzero]
        exact Nat.zero_le _
      · next hzero =>
        rw [if_neg hzero]
        exact Nat.succ_le_succ (ih h)

theorem length_repeated (h : (scales last deltas).length ≤ size) :
    (repeated size last deltas).length = size := by
  unfold repeated
  rw [List.length_append, List.length_map, List.length_replicate]
  omega

theorem getD_repeated (h : scales 8 deltas ≠ []) {j : Nat} (hj : j < size) :
    (repeated size 8 deltas).getD j 0 =
      BitVec.ofInt 32 ((scales 8 deltas).getD j ((scales 8 deltas).getLastD 0)) := by
  have hlast : (scales 8 deltas).getLastD 8 = (scales 8 deltas).getLastD 0 := by
    cases hs : scales 8 deltas with
    | nil => exact absurd hs h
    | cons scale scales => rw [List.getLastD_cons, List.getLastD_cons]
  unfold repeated
  rw [hlast]
  by_cases hlt : j < (scales 8 deltas).length
  · rw [List.getD_append _ _ _ _ (by simpa using hlt)]
    simp [List.getD_eq_getElem?_getD, hlt]
  · rw [List.getD_append_right _ _ _ _ (by simpa using hlt)]
    rw [List.getD_replicate _ (by rw [List.length_map]; omega),
      List.getD_eq_default _ _ (Nat.not_lt.mp hlt)]

variable {side : Nat} {scan : List (Fin n)} {defaults : List Word} {default fallback : Vector Word n}

theorem yields_readScalingList_some {l : ScalingListSyntax n} {b : σ}
    {t : HeaderState σ (ScalingList n) M} (hscan : ZigZag side scan) (hn : 0 < n)
    (hdefaults : ∀ list, putScanned scan defaults list = default)
    (hcoded : DeltasAt l.deltaScale s.bits b)
    (h : Yields (readScalingList true scan defaults fallback) s () t) :
    t.bits = b ∧ t.header.scalingList = l.list side default := by
  have hcomplete : Complete scan.length 8 l.deltaScale := by
    rw [hscan.length]
    exact l.complete
  have hread : l.deltaScale ≠ [] := by
    intro hnil
    have hnone := l.complete
    rw [hnil] at hnone
    cases n with
    | zero => exact absurd hn (by decide)
    | succ n => exact hnone
  have hpasses := yields_scalingPasses (s := s) 0 ⟨by decide, by decide⟩ l.inRange hcomplete hcoded
  obtain ⟨_, s₁, h₁, h⟩ := yields_bind.mp h
  obtain rfl := (Prod.mk.inj (hpasses.symm.trans h₁)).2
  obtain ⟨_, s₂, h₂, h⟩ := yields_bind.mp h
  obtain rfl := (Prod.mk.inj h₂).2
  obtain ⟨-, rfl⟩ := yields_assertAntiEmulationOk.mp h
  refine ⟨rfl, ?_⟩
  unfold ScalingListSyntax.list
  dsimp only
  rw [if_neg hread]
  by_cases hzero : scales 8 l.deltaScale = []
  · -- the flag has kept what the first pass put there
    have hflag : (0 = 0 ∧ scales 8 l.deltaScale = []) := ⟨rfl, hzero⟩
    rw [if_pos hzero, if_pos hflag]
    exact hdefaults _
  · have hflag : ¬ (0 = 0 ∧ scales 8 l.deltaScale = []) := fun h => hzero h.2
    rw [if_neg hzero, if_neg hflag]
    refine putScanned_eq_raster hscan ?_ (fun j hj => ?_) _
    · rw [length_repeated (length_scales_le hcomplete), hscan.length]
    · rw [hscan.length]
      exact getD_repeated hzero hj

theorem yields_readScalingList_none {t : HeaderState σ (ScalingList n) M}
    (h : Yields (readScalingList false scan defaults fallback) s () t) :
    t.bits = s.bits ∧ t.header.scalingList = fallback := by
  obtain ⟨_, s', hs', h⟩ := yields_bind.mp h
  obtain rfl := (Prod.mk.inj hs').2
  obtain ⟨-, rfl⟩ := yields_assertAntiEmulationOk.mp h
  exact ⟨rfl, rfl⟩

end List

/-! ## Reading a matrix -/

section Matrix

variable {σ M : Type} [BitSource σ] {n : Nat}

open ScalingMatrixSyntax

theorem raster_intra4x4 :
    (raster 4 fun j => defaultScalingList4x4Intra.getD j 0) = defaultIntra4x4 := by
  decide

theorem raster_inter4x4 :
    (raster 4 fun j => defaultScalingList4x4Inter.getD j 0) = defaultInter4x4 := by
  decide

theorem raster_intra8x8 :
    (raster 8 fun j => defaultScalingList8x8Intra.getD j 0) = defaultIntra8x8 := by
  decide +kernel

theorem raster_inter8x8 :
    (raster 8 fun j => defaultScalingList8x8Inter.getD j 0) = defaultInter8x8 := by
  decide +kernel

theorem putScanned_default4x4 (i : Fin 6) (list : Vector Word 16) :
    putScanned zzScan4x4 (defaultScalingList4x4 i) list = default4x4 i := by
  unfold defaultScalingList4x4 default4x4
  split
  · exact (putScanned_eq_raster zigZag_zzScan4x4 rfl (fun _ _ => rfl) list).trans raster_intra4x4
  · exact (putScanned_eq_raster zigZag_zzScan4x4 rfl (fun _ _ => rfl) list).trans raster_inter4x4

theorem putScanned_default8x8 (i : Fin 2) (list : Vector Word 64) :
    putScanned zzScan8x8 (defaultScalingList8x8 i) list = default8x8 i := by
  unfold defaultScalingList8x8 default8x8
  split
  · exact (putScanned_eq_raster zigZag_zzScan8x8 rfl (fun _ _ => rfl) list).trans raster_intra8x8
  · exact (putScanned_eq_raster zigZag_zzScan8x8 rfl (fun _ _ => rfl) list).trans raster_inter8x8

theorem fallbackRuleA_eq : fallbackRuleA = ruleA :=
  (FallbackRule.mk.injEq ..).mpr ⟨putScanned_default4x4 0 _, putScanned_default4x4 3 _,
    putScanned_default8x8 0 _, putScanned_default8x8 1 _⟩

/-- What both passes do; `fallback` is the list that one that is not coded is copied from. -/
def scalingPass (member : Member ScalingMatrix (ScalingList n)) (k : Nat) (scan : List (Fin n))
    (defaults : List Word) (fallback : ScalingMatrix → Vector Word n) :
    HeaderParser σ ScalingMatrix M Unit := do
  let present ← readAt (u 1) presentFlag k
  let h ← header
  within member (readScalingList (present != 0) scan defaults (fallback h))

theorem yields_scalingPass {member : Member ScalingMatrix (ScalingList n)} {k : Nat}
    {scan : List (Fin n)} {defaults : List Word} {fallback : ScalingMatrix → Vector Word n}
    {side : Nat} {default : Vector Word n} {coded : Option (ScalingListSyntax n)} {b : σ}
    {s t : HeaderState σ ScalingMatrix M} (hk : k < 8) (hscan : ZigZag side scan) (hn : 0 < n)
    (hdefaults : ∀ list, putScanned scan defaults list = default)
    (hcoded : ListAt coded s.bits b)
    (h : Yields (scalingPass member k scan defaults fallback) s () t) :
    ∃ flags l, t.bits = b ∧
      t.header = member.set l { s.header with scalingListPresentFlag := flags } ∧
      l.scalingList =
        coded.elim (fallback { s.header with scalingListPresentFlag := flags })
          (·.list side default) := by
  obtain ⟨present, s₁, h₁, h⟩ := yields_bind.mp h
  obtain ⟨rfl, rfl⟩ := (yields_readAt hk).mp h₁
  obtain ⟨x, s₂, h₂, h⟩ := yields_bind.mp h
  obtain ⟨rfl, rfl⟩ := yields_header.mp h₂
  obtain ⟨t', ht', rfl⟩ := yields_within.mp h
  cases coded with
  | none =>
    obtain ⟨hflag, rfl⟩ := hcoded
    rw [show ((u 1 s.bits).1 != 0) = false by rw [hflag]; rfl] at ht'
    obtain ⟨hbits, hlist⟩ := yields_readScalingList_none ht'
    exact ⟨_, t'.header, hbits, rfl, hlist⟩
  | some l =>
    obtain ⟨hflag, hdeltas⟩ := hcoded
    rw [bne_iff_ne.mpr hflag] at ht'
    obtain ⟨hbits, hlist⟩ := yields_readScalingList_some hscan hn hdefaults hdeltas ht'
    exact ⟨_, t'.header, hbits, rfl, hlist⟩

variable {m : ScalingMatrixSyntax} {rule : FallbackRule}

theorem derived4x4_eq (i : Fin 6) :
    m.derived4x4 rule i = (m.list4x4 i).elim
      (if i = 0 then rule.intra4x4 else if i = 3 then rule.inter4x4
        else m.derived4x4 rule (i - 1))
      (·.list 4 (default4x4 i)) := by
  conv_lhs => unfold derived4x4
  cases m.list4x4 i <;> rfl

theorem derived8x8_eq (i : Fin 2) :
    m.derived8x8 rule i = (m.list8x8 i).elim (rule.list8x8 i) (·.list 8 (default8x8 i)) := by
  unfold derived8x8
  cases m.list8x8 i <;> rfl

/-- The lists of 16 before `i` are those of the standard. -/
def Lists4x4 (m : ScalingMatrixSyntax) (rule : FallbackRule) (h : ScalingMatrix) (i : Nat) : Prop :=
  ∀ j : Fin 6, j.val < i → h.scalingList4x4.get j = m.derived4x4 rule j

def Lists8x8 (m : ScalingMatrixSyntax) (rule : FallbackRule) (h : ScalingMatrix) (i : Nat) : Prop :=
  ∀ j : Fin 2, j.val < i → h.scalingList8x8.get j = m.derived8x8 rule j

theorem Lists4x4.pass {i : Fin 6} {b : σ} {s t : HeaderState σ ScalingMatrix M}
    (hs : Lists4x4 m rule s.header i) (hcoded : ListAt (m.list4x4 i) s.bits b)
    (h : Yields (scalingPass4x4 rule i) s () t) :
    t.bits = b ∧ Lists4x4 m rule t.header (i + 1) := by
  obtain ⟨flags, l, hbits, hheader, hl⟩ := yields_scalingPass (by omega) zigZag_zzScan4x4
    (by decide) (putScanned_default4x4 i) hcoded h
  refine ⟨hbits, fun j hj => ?_⟩
  have hget : t.header.scalingList4x4.get j =
      (s.header.scalingList4x4.set i l.scalingList)[j] := by
    rw [hheader]
    rfl
  rw [hget]
  by_cases hji : j = i
  · subst hji
    have hfallback : rule.list4x4 { s.header with scalingListPresentFlag := flags } j =
        if j = 0 then rule.intra4x4 else if j = 3 then rule.inter4x4
          else m.derived4x4 rule (j - 1) := by
      unfold FallbackRule.list4x4
      split
      · rfl
      · next hzero =>
        -- the list before has been read
        exact if_congr Iff.rfl rfl (hs (j - 1) (by omega))
    rw [derived4x4_eq, ← hfallback, ← hl]
    simp
  · rw [← hs j (by omega)]
    show _ = s.header.scalingList4x4[j]
    simp [Fin.val_ne_of_ne (Ne.symm hji)]

theorem Lists8x8.pass {i : Fin 2} {b : σ} {s t : HeaderState σ ScalingMatrix M}
    (hs : Lists8x8 m rule s.header i) (hcoded : ListAt (m.list8x8 i) s.bits b)
    (h : Yields (scalingPass8x8 rule i) s () t) :
    t.bits = b ∧ t.header.scalingList4x4 = s.header.scalingList4x4 ∧
      Lists8x8 m rule t.header (i + 1) := by
  have hpass : Yields (scalingPass (list8x8 i) (i + 6) zzScan8x8 (defaultScalingList8x8 i)
      fun _ => rule.list8x8 i) s () t := h
  obtain ⟨flags, l, hbits, hheader, hl⟩ := yields_scalingPass (by omega) zigZag_zzScan8x8
    (by decide) (putScanned_default8x8 i) hcoded hpass
  refine ⟨hbits, by rw [hheader]; rfl, fun j hj => ?_⟩
  have hget : t.header.scalingList8x8.get j =
      (s.header.scalingList8x8.set i l.scalingList)[j] := by
    rw [hheader]
    rfl
  rw [hget]
  by_cases hji : j = i
  · subst hji
    rw [derived8x8_eq, ← hl]
    simp
  · rw [← hs j (by omega)]
    show _ = s.header.scalingList8x8[j]
    simp [Fin.val_ne_of_ne (Ne.symm hji)]

/-- The lists that are read are those of the standard. -/
structure ScalingMatrix.Standard (h : ScalingMatrix) (m : ScalingMatrixSyntax)
    (rule : FallbackRule) (lists8x8 : Bool) : Prop where
  list4x4 : ∀ i : Fin 6, h.scalingList4x4.get i = m.derived4x4 rule i
  list8x8 : lists8x8 = true → ∀ i : Fin 2, h.scalingList8x8.get i = m.derived8x8 rule i

theorem yields_readScalingMatrix {lists8x8 : Bool} {s t : HeaderState σ ScalingMatrix M}
    (hcoded : m.CodedAt lists8x8 s.bits) (h : Yields (readScalingMatrix lists8x8 rule) s () t) :
    t.header.Standard m rule lists8x8 := by
  obtain ⟨position, hstart, hcoded4x4, hcoded8x8⟩ := hcoded
  obtain ⟨_, s₁, h₁, h⟩ := yields_bind.mp h
  obtain ⟨hbits, h4x4⟩ := yields_forM_finRange
    (I := fun i s => s.bits = position i ∧ Lists4x4 m rule s.header i)
    (fun i s t hs h => hs.2.pass (hs.1 ▸ hcoded4x4 i) h)
    ⟨hstart.symm, fun j hj => absurd hj (Nat.not_lt_zero _)⟩ h₁
  unfold Parse.when at h
  split at h
  · next hlists =>
    obtain ⟨-, hkept, h8x8⟩ := yields_forM_finRange
      (I := fun i s => s.bits = position (i + 6) ∧
        s.header.scalingList4x4 = s₁.header.scalingList4x4 ∧ Lists8x8 m rule s.header i)
      (fun i s t hs h => by
        obtain ⟨hend, hsame, hlists8x8⟩ := hs.2.2.pass (hs.1 ▸ hcoded8x8 hlists i) h
        exact ⟨by rw [hend, Nat.add_right_comm], hsame.trans hs.2.1, hlists8x8⟩)
      ⟨hbits, rfl, fun j hj => absurd hj (Nat.not_lt_zero _)⟩ h
    exact ⟨fun i => by rw [hkept]; exact h4x4 i i.isLt, fun _ i => h8x8 i i.isLt⟩
  · next hlists =>
    obtain rfl := (Prod.mk.inj h).2
    exact ⟨fun i => h4x4 i i.isLt, fun h => absurd h hlists⟩

end Matrix

/-! ## Sequence parameter sets -/

section Sets

variable {σ : Type} [BitSource σ]

/-- From `chroma_format_idc` to behind `seq_scaling_matrix_present_flag`. -/
def Sps.skipHighProfile (s : σ) : σ :=
  let (chromaFormatIdc, s) := ue s
  let s := if chromaFormatIdc == 3 then skip [u 1] s else s
  skip [ue, ue, u 1, u 1] s

/-- Where the scaling matrix of a sequence parameter set is. -/
def Sps.matrixPosition (bits : σ) : σ :=
  Sps.skipHighProfile (skip [u 8, u 1, u 1, u 1, u 1, u 4, u 8, ue] bits)

/-- If the header says that there is a matrix, and one is at the position, its lists are
in the header. -/
def Sps.ListsOf (position : σ) (h : SequenceParameterSetHeader) : Prop :=
  h.seqScalingMatrixPresentFlag ≠ 0 → ∀ m : ScalingMatrixSyntax, m.CodedAt true position →
    h.scaling.Standard m ScalingMatrixSyntax.ruleA true

theorem Sps.yields_readProfile {s t : HeaderState σ SequenceParameterSetHeader SetMembers}
    (h : Yields readProfile s () t) :
    t.bits = skip [u 8, u 1, u 1, u 1, u 1, u 4] s.bits ∧
      t.header.seqScalingMatrixPresentFlag = s.header.seqScalingMatrixPresentFlag := by
  simp only [readProfile, yields_bind, yields_read] at h
  obtain ⟨_, _, rfl, _, _, rfl, _, _, rfl, _, _, rfl, _, _, rfl, h⟩ := h
  obtain ⟨marker, s', hs', h⟩ := yields_bind.mp h
  obtain ⟨rfl, rfl⟩ := yields_take.mp hs'
  split at h
  · exact absurd (congrArg Prod.fst h) (by simp [Parse.stop])
  · obtain rfl := (Prod.mk.inj h).2
    exact ⟨rfl, rfl⟩

theorem Sps.yields_matrix {flag : Word} {s t : HeaderState σ SequenceParameterSetHeader SetMembers}
    (hflag : s.header.seqScalingMatrixPresentFlag = flag)
    (h : Yields (when (flag != 0) (within scaling (readScalingMatrix true fallbackRuleA))) s () t) :
    ListsOf s.bits t.header := by
  unfold Parse.when at h
  split at h
  · obtain ⟨t', ht', rfl⟩ := yields_within.mp h
    intro _ m hm
    rw [fallbackRuleA_eq] at ht'
    exact yields_readScalingMatrix hm ht'
  · next hzero =>
    obtain rfl := (Prod.mk.inj h).2
    intro hpresent
    rw [bne_iff_ne, not_not, ← hflag] at hzero
    exact absurd hzero hpresent

theorem Sps.yields_readHighProfile {s t : HeaderState σ SequenceParameterSetHeader SetMembers}
    (h : Yields readHighProfile s () t) : ListsOf (skipHighProfile s.bits) t.header := by
  obtain ⟨chromaFormatIdc, s₁, h₁, h⟩ := yields_bind.mp h
  obtain ⟨rfl, rfl⟩ := yields_take.mp h₁
  obtain ⟨_, s₂, h₂, h⟩ := yields_bind.mp h
  have hbits₂ := moves_setHeader _ _ _ _ h₂
  obtain ⟨_, s₃, h₃, h⟩ := yields_bind.mp h
  have hbits₃ := (moves_read (u 1) _).when _ _ _ h₃
  obtain ⟨_, s₄, h₄, h⟩ := yields_bind.mp h
  have hbits₄ := moves_read ue _ _ _ _ h₄
  obtain ⟨_, s₅, h₅, h⟩ := yields_bind.mp h
  have hbits₅ := moves_read ue _ _ _ _ h₅
  obtain ⟨_, s₆, h₆, h⟩ := yields_bind.mp h
  have hbits₆ := moves_read (u 1) _ _ _ _ h₆
  obtain ⟨flag, s₇, h₇, h⟩ := yields_bind.mp h
  have hbits₇ := moves_take (u 1) _ _ _ h₇
  obtain ⟨_, s₈, h₈, h⟩ := yields_bind.mp h
  have hflag : s₈.header.seqScalingMatrixPresentFlag = flag := by rw [yields_setHeader.mp h₈]
  have hposition : s₈.bits = skipHighProfile s.bits := by
    rw [moves_setHeader _ _ _ _ h₈, hbits₇, hbits₆, hbits₅, hbits₄, hbits₃, hbits₂]
    rfl
  rw [← hposition]
  exact yields_matrix hflag h

omit [BitSource σ] in
theorem Sps.keeps_markStreamUnPlayable {P : SequenceParameterSetHeader → Prop} :
    KeepsHeader P (markStreamUnPlayable : SpsParser σ Unit) :=
  (keeps_setMembers _).bind fun _ => Keeps.stop _

theorem Sps.keeps_readOrderCounts {position : σ} :
    KeepsHeader (ListsOf position) (readOrderCounts : SpsParser σ Unit) := by
  refine Keeps.bind (keeps_read fun _ _ h => h) fun _ => (keeps_take _).bind fun type => ?_
  refine Keeps.bind (keeps_setHeader fun _ h => h) fun _ => Keeps.ite ?_ (Keeps.when _ ?_)
  · exact keeps_read fun _ _ h => h
  · iterate 3 refine Keeps.bind (keeps_read fun _ _ h => h) fun _ => ?_
    refine (keeps_take _).bind fun cycle => Keeps.bind (keeps_setHeader fun _ h => h) fun _ => ?_
    exact (Keeps.when _ keeps_markStreamUnPlayable).bind fun _ =>
      Keeps.forFrom fun i => keeps_readInto (fun _ _ h => h) i

theorem Sps.keeps_readPicture {position : σ} :
    KeepsHeader (ListsOf position) (readPicture : SpsParser σ Unit) := by
  refine (keeps_take _).bind fun numRefFrames => Keeps.bind (keeps_setHeader fun _ h => h) fun _ => ?_
  refine (Keeps.when _ keeps_markStreamUnPlayable).bind fun _ => ?_
  iterate 3 refine Keeps.bind (keeps_read fun _ _ h => h) fun _ => ?_
  refine (keeps_take _).bind fun frameMbsOnly => Keeps.bind (keeps_setHeader fun _ h => h) fun _ => ?_
  refine Keeps.bind (Keeps.when _ (keeps_read fun _ _ h => h)) fun _ => ?_
  refine Keeps.bind (keeps_read fun _ _ h => h) fun _ => ?_
  refine (keeps_take _).bind fun cropping => Keeps.bind (keeps_setHeader fun _ h => h) fun _ => ?_
  refine Keeps.when _ ?_
  iterate 3 refine Keeps.bind (keeps_read fun _ _ h => h) fun _ => ?_
  exact keeps_read fun _ _ h => h

theorem Sps.yields_readBody {s t : HeaderState σ SequenceParameterSetHeader SetMembers}
    {id : Fin maxSequenceParameterSets} (hs : s.header.seqScalingMatrixPresentFlag = 0)
    (h : Yields readBody s id t) : ListsOf (skipHighProfile (skip [u 8, ue] s.bits)) t.header := by
  obtain ⟨_, s₁, h₁, h⟩ := yields_bind.mp h
  obtain ⟨code, s₂, h₂, h⟩ := yields_bind.mp h
  obtain ⟨_, s₃, h₃, h⟩ := yields_bind.mp h
  have hposition : s₃.bits = skip [u 8, ue] s.bits := by
    rw [moves_setHeader _ _ _ _ h₃, moves_take ue _ _ _ h₂, moves_read (u 8) _ _ _ _ h₁]
    rfl
  have hflag : s₃.header.seqScalingMatrixPresentFlag = 0 := by
    rw [yields_setHeader.mp h₃, (yields_take.mp h₂).2, yields_read.mp h₁]
    exact hs
  rw [← hposition]
  split at h
  · obtain ⟨x, s₄, h₄, h⟩ := yields_bind.mp h
    obtain ⟨rfl, hs₄⟩ := yields_header.mp h₄
    obtain ⟨_, s₅, h₅, h⟩ := yields_bind.mp h
    rw [hs₄] at h₅
    have hlists : ListsOf (skipHighProfile s₃.bits) s₅.header := by
      unfold Parse.when at h₅
      split at h₅
      · exact yields_readHighProfile h₅
      · obtain rfl := (Prod.mk.inj h₅).2
        exact fun hpresent => absurd hflag hpresent
    refine Keeps.bind keeps_readOrderCounts (fun _ => ?_) s₅ id t hlists h
    refine keeps_readPicture.bind fun _ => (keeps_take _).bind fun vui => ?_
    refine Keeps.bind (keeps_setHeader fun _ h => h) fun _ => ?_
    refine Keeps.bind (Keeps.when _ (keeps_within fun _ _ h => h)) fun _ => ?_
    exact Keeps.pure _
  · exact absurd (congrArg Prod.fst h) (by simp [Parse.stop])

/-! ## Picture parameter sets -/

/-- What follows `slice_group_map_type`. -/
def Pps.skipSliceGroupMap (numSliceGroupsMinus1 mapType : Word) (s : σ) : σ :=
  if mapType == 0 then (skip [ue])^[numSliceGroupsMinus1.toNat + 1] s
  else if mapType == 2 then (skip [ue, ue])^[numSliceGroupsMinus1.toNat + 1] s
  else if mapType == 3 || mapType == 4 || mapType == 5 then skip [u 1, ue] s
  else if mapType == 6 then
    (skip [u (log2Ceil (numSliceGroupsMinus1 + 1))])^[(ue s).1.toNat + 1] (ue s).2
  else s

def Pps.skipSliceGroups (numSliceGroupsMinus1 : Word) (s : σ) : σ :=
  skipSliceGroupMap numSliceGroupsMinus1 (ue s).1 (ue s).2

/-- Where the scaling matrix of a picture parameter set is. -/
def Pps.matrixPosition (bits : σ) : σ :=
  let s := skip [ue, ue, u 1, u 1] bits
  let (numSliceGroupsMinus1, s) := ue s
  let s := if 0 < numSliceGroupsMinus1 then skipSliceGroups numSliceGroupsMinus1 s else s
  let s := skip [ue, ue, u 1, u 2, se, se, se, u 1, u 1, u 1] s
  skip [u 1, u 1] (BitSource.moreRsbpData s).2

/-- As `Sps.ListsOf`, behind a sequence parameter set. -/
def Pps.ListsOf (position : σ) (sps : SequenceParameterSetHeader) (h : PictureParameterSetHeader) :
    Prop :=
  h.picScalingMatrixPresentFlag ≠ 0 →
    ∀ m : ScalingMatrixSyntax, m.CodedAt (h.transform8x8ModeFlag != 0) position →
      h.scaling.Standard m (ScalingMatrixSyntax.ruleFor sps) (h.transform8x8ModeFlag != 0)

/-- Before `pic_scaling_matrix_present_flag`. -/
def Pps.Before (sps : SequenceParameterSetHeader) (h : PictureParameterSetHeader) : Prop :=
  h.picScalingMatrixPresentFlag = 0 ∧ h.sequenceParameterSet = sps

theorem ruleFor_eq (sps : SequenceParameterSetHeader) :
    (if sps.seqScalingMatrixPresentFlag != 0 then fallbackRuleB sps else fallbackRuleA) =
      ScalingMatrixSyntax.ruleFor sps := by
  unfold ScalingMatrixSyntax.ruleFor
  by_cases h : sps.seqScalingMatrixPresentFlag = 0
  · rw [if_pos h, if_neg (by simpa using h), fallbackRuleA_eq]
  · rw [if_neg h, if_pos (bne_iff_ne.mpr h)]
    rfl

variable {sps : SequenceParameterSetHeader}

theorem Pps.yields_matrix {rule : FallbackRule}
    {s t : HeaderState σ PictureParameterSetHeader SetMembers}
    (hrule : rule = ScalingMatrixSyntax.ruleFor sps)
    (h : Yields (within scaling (readScalingMatrix (s.header.transform8x8ModeFlag != 0) rule))
      s () t) :
    ListsOf s.bits sps t.header := by
  obtain ⟨t', ht', rfl⟩ := yields_within.mp h
  intro _ m hm
  rw [hrule] at ht'
  exact yields_readScalingMatrix hm ht'

theorem Pps.yields_readExtension {s t : HeaderState σ PictureParameterSetHeader SetMembers}
    (hs : Before sps s.header) (h : Yields readExtension s () t) :
    ListsOf (skip [u 1, u 1] (BitSource.moreRsbpData s.bits).2) sps t.header := by
  obtain ⟨_, s₁, h₁, h⟩ := yields_bind.mp h
  obtain ⟨more, s₂, h₂, h⟩ := yields_bind.mp h
  obtain rfl := yields_setHeader.mp h₁
  obtain ⟨rfl, rfl⟩ := yields_take.mp h₂
  split at h
  · obtain ⟨transform8x8, s₃, h₃, h⟩ := yields_bind.mp h
    obtain ⟨_, s₄, h₄, h⟩ := yields_bind.mp h
    obtain ⟨flag, s₅, h₅, h⟩ := yields_bind.mp h
    obtain ⟨_, s₆, h₆, h⟩ := yields_bind.mp h
    obtain ⟨_, s₇, h₇, h⟩ := yields_bind.mp h
    have hposition : s₆.bits = skip [u 1, u 1] (BitSource.moreRsbpData s.bits).2 := by
      rw [moves_setHeader _ _ _ _ h₆, moves_take (u 1) _ _ _ h₅, moves_setHeader _ _ _ _ h₄,
        moves_take (u 1) _ _ _ h₃]
      rfl
    have hsps : s₆.header.sequenceParameterSet = sps := by
      rw [yields_setHeader.mp h₆, (yields_take.mp h₅).2, yields_setHeader.mp h₄,
        (yields_take.mp h₃).2]
      exact hs.2
    have htransform : s₆.header.transform8x8ModeFlag = transform8x8 := by
      rw [yields_setHeader.mp h₆, (yields_take.mp h₅).2, yields_setHeader.mp h₄]
    have hflag : s₆.header.picScalingMatrixPresentFlag = flag := by
      rw [yields_setHeader.mp h₆]
    rw [← hposition]
    have hlists : ListsOf s₆.bits sps s₇.header := by
      unfold Parse.when at h₇
      split at h₇
      · obtain ⟨x, s₈, h₈, h₇⟩ := yields_bind.mp h₇
        obtain ⟨rfl, hs₈⟩ := yields_header.mp h₈
        rw [hs₈, ← htransform] at h₇
        refine yields_matrix ?_ h₇
        rw [← hsps]
        exact ruleFor_eq _
      · next hzero =>
        obtain rfl := (Prod.mk.inj h₇).2
        intro hpresent
        rw [bne_iff_ne, not_not, ← hflag] at hzero
        exact absurd hzero hpresent
    refine keeps_read ?_ s₇ () t hlists h
    exact fun _ _ h => h
  · obtain rfl := (Prod.mk.inj h).2
    exact fun hpresent => absurd hs.1 hpresent

theorem Pps.moves_readSliceGroups (numSliceGroupsMinus1 : Word) :
    Moves (skipSliceGroups numSliceGroupsMinus1)
      (readSliceGroups numSliceGroupsMinus1 : PpsParser σ Unit) := by
  refine Moves.bind_take fun mapType => Moves.bind_id (moves_setHeader _) fun _ => ?_
  refine Moves.ite ?_ (Moves.ite ?_ (Moves.ite ?_ (Moves.when ?_)))
  · exact Moves.forFrom (fun i => moves_readInto ue _ i) _ _
  · refine Moves.forFrom (fun i => ?_) _ _
    exact Moves.bind_skip (moves_readInto ue _ i) fun _ => moves_readInto ue _ i
  · exact Moves.bind_skip (moves_read (u 1) _) fun _ => moves_read ue _
  · refine Moves.bind_take (f := fun picSize => (skip [u _])^[picSize.toNat + 1]) fun picSize => ?_
    refine Moves.bind_id (moves_setHeader _) fun _ => ?_
    split
    · exact moves_stop _
    · exact Moves.forFrom (fun i => moves_readInto (u _) _ i) _ _

theorem Pps.moves_readReferences :
    Moves (skip [ue, ue, u 1, u 2, se, se, se, u 1, u 1, u 1])
      (readReferences : PpsParser σ Unit) := by
  refine Moves.bind_skip (moves_take ue) fun l0 => Moves.bind_id (moves_setHeader _) fun _ => ?_
  refine Moves.bind_skip (moves_take ue) fun l1 => Moves.bind_id (moves_setHeader _) fun _ => ?_
  iterate 8 refine Moves.bind_skip (moves_read _ _) fun _ => ?_
  unfold Parse.when
  split
  · exact moves_stop _
  · exact moves_pure ()

theorem Pps.keeps_readSliceGroups (numSliceGroupsMinus1 : Word) :
    KeepsHeader (Before sps) (readSliceGroups numSliceGroupsMinus1 : PpsParser σ Unit) := by
  refine (keeps_take _).bind fun mapType => Keeps.bind (keeps_setHeader fun _ h => h) fun _ => ?_
  refine Keeps.ite ?_ (Keeps.ite ?_ (Keeps.ite ?_ (Keeps.when _ ?_)))
  · exact Keeps.forFrom fun i => keeps_readInto (fun _ _ h => h) i
  · refine Keeps.forFrom fun i => Keeps.bind ?_ fun _ => ?_
    · exact keeps_readInto (fun _ _ h => h) i
    · exact keeps_readInto (fun _ _ h => h) i
  · refine Keeps.bind (keeps_read fun _ _ h => h) fun _ => ?_
    exact keeps_read fun _ _ h => h
  · refine (keeps_take _).bind fun picSize => Keeps.bind (keeps_setHeader fun _ h => h) fun _ => ?_
    refine Keeps.ite (Keeps.stop _) (Keeps.forFrom fun i => ?_)
    exact keeps_readInto (fun _ _ h => h) i

theorem Pps.keeps_readReferences :
    KeepsHeader (Before sps) (readReferences : PpsParser σ Unit) := by
  refine (keeps_take _).bind fun l0 => Keeps.bind (keeps_setHeader fun _ h => h) fun _ => ?_
  refine (keeps_take _).bind fun l1 => Keeps.bind (keeps_setHeader fun _ h => h) fun _ => ?_
  iterate 8 refine Keeps.bind (keeps_read fun _ _ h => h) fun _ => ?_
  exact Keeps.when _ (Keeps.stop _)

theorem Pps.yields_readIds {s t : HeaderState σ PictureParameterSetHeader SetMembers}
    {ids : Fin maxPictureParameterSets × Fin maxSequenceParameterSets}
    (hs : s.header.picScalingMatrixPresentFlag = 0) (h : Yields readIds s ids t) :
    ids.2.val = (ue (skip [ue] s.bits)).1.toNat ∧
      t.header.picScalingMatrixPresentFlag = 0 ∧
      t.header.numSliceGroupsMinus1 = (ue (skip [ue, ue, u 1, u 1] s.bits)).1 ∧
      t.bits = (ue (skip [ue, ue, u 1, u 1] s.bits)).2 := by
  obtain ⟨picId, s₁, h₁, h⟩ := yields_bind.mp h
  obtain ⟨_, s₂, h₂, h⟩ := yields_bind.mp h
  obtain ⟨seqId, s₃, h₃, h⟩ := yields_bind.mp h
  obtain ⟨_, s₄, h₄, h⟩ := yields_bind.mp h
  obtain ⟨_, s₅, h₅, h⟩ := yields_bind.mp h
  obtain ⟨_, s₆, h₆, h⟩ := yields_bind.mp h
  obtain ⟨_, s₇, h₇, h⟩ := yields_bind.mp h
  have hbits₂ : s₂.bits = skip [ue] s.bits := by
    rw [moves_setHeader _ _ _ _ h₂, moves_take ue _ _ _ h₁]
    rfl
  have hseqId : seqId = (ue (skip [ue] s.bits)).1 := by rw [(yields_take.mp h₃).1, hbits₂]
  have hbits₆ : s₆.bits = skip [ue, ue, u 1, u 1] s.bits := by
    rw [moves_read (u 1) _ _ _ _ h₆, moves_read (u 1) _ _ _ _ h₅, moves_setHeader _ _ _ _ h₄,
      moves_take ue _ _ _ h₃, hbits₂]
    rfl
  have hflag : s₆.header.picScalingMatrixPresentFlag = 0 := by
    rw [yields_read.mp h₆, yields_read.mp h₅, yields_setHeader.mp h₄, (yields_take.mp h₃).2,
      yields_setHeader.mp h₂, (yields_take.mp h₁).2]
    exact hs
  have hs₇ := yields_read.mp h₇
  rw [hbits₆] at hs₇
  split at h
  · split at h
    · obtain ⟨hids, rfl⟩ := Prod.mk.inj h
      refine ⟨?_, ?_, ?_, ?_⟩
      · rw [← Except.ok.inj hids, ← hseqId]
      · rw [hs₇]
        exact hflag
      · rw [hs₇]
      · rw [hs₇]
    · exact absurd (congrArg Prod.fst h) (by simp [Parse.stop])
  · exact absurd (congrArg Prod.fst h) (by simp [Parse.stop])

theorem Pps.yields_readBody_lists {bits : σ}
    {s t : HeaderState σ PictureParameterSetHeader SetMembers} (hs : Before sps s.header)
    (hgroups : s.header.numSliceGroupsMinus1 = (ue (skip [ue, ue, u 1, u 1] bits)).1)
    (hbits : s.bits = (ue (skip [ue, ue, u 1, u 1] bits)).2) (h : Yields readBody s () t) :
    ListsOf (matrixPosition bits) sps t.header := by
  obtain ⟨x, s₁, h₁, h⟩ := yields_bind.mp h
  obtain ⟨rfl, hs₁⟩ := yields_header.mp h₁
  rw [hs₁] at h
  obtain ⟨_, s₂, h₂, h⟩ := yields_bind.mp h
  obtain ⟨_, s₃, h₃, h⟩ := yields_bind.mp h
  obtain ⟨_, s₄, h₄, h⟩ := yields_bind.mp h
  have hbefore₂ : Before sps s₂.header :=
    Keeps.when (P := fun s => Before sps s.header) _ (Keeps.stop _) _ _ _ hs h₂
  have hbits₂ := Moves.when (f := id) (moves_stop _) _ _ _ h₂
  have hbefore₃ := Keeps.when _ (keeps_readSliceGroups _) _ _ _ hbefore₂ h₃
  have hbits₃ := (moves_readSliceGroups _).when _ _ _ h₃
  have hbefore₄ := keeps_readReferences _ _ _ hbefore₃ h₄
  have hbits₄ := moves_readReferences _ _ _ h₄
  have hposition : skip [u 1, u 1] (BitSource.moreRsbpData s₄.bits).2 = matrixPosition bits := by
    rw [hbits₄, hbits₃, hbits₂, hgroups, hbits]
    simp only [id, ite_self, decide_eq_true_eq]
    rfl
  rw [← hposition]
  exact yields_readExtension hbefore₄ h

/-! ## Both -/

variable {n m : Nat} {pools : Pools n m} {s : HeldSets n m} {bits : σ} {members : SetMembers}
  {r : Returned σ n m}

theorem readNalSequenceParameterSet_lists {id : Fin maxSequenceParameterSets}
    {entry : SequenceEntry n} (h : readNalSequenceParameterSet pools s.1 bits members = some r)
    (hget : (s.1.manager.getBuffer pools.sequenceParameterSetPool).map (·.1) = some entry.buffer)
    (hentry : r.sets.sequenceParameterSetTable id = some entry) :
    Sps.ListsOf (Sps.matrixPosition bits) entry.header := by
  obtain ⟨⟨b, manager⟩, hgot, rfl⟩ := Option.map_eq_some_iff.mp hget
  have hfree := (Manager.getBuffer_some hgot).1
  rcases (readNalSequenceParameterSet_entries h).2 hentry with hold | ⟨t, u, hprofile, hbody, hnew⟩
  · exact absurd (s.2.free _ _ hfree) (s.2.sequence id _ hold)
  · obtain ⟨hbits, hflag⟩ := Sps.yields_readProfile hprofile
    have hlists := Sps.yields_readBody hflag hbody
    rw [hbits] at hlists
    rw [hnew]
    exact hlists

theorem readNalPictureParameterSet_lists {id : Fin maxPictureParameterSets} {entry : PictureEntry n}
    (h : readNalPictureParameterSet pools s.1 bits members = some r)
    (hget : (s.1.manager.getBuffer pools.pictureParameterSetPool).map (·.1) = some entry.buffer)
    (hentry : r.sets.pictureParameterSetTable id = some entry) :
    ∃ seqId sps, seqId.val = (ue (skip [ue] bits)).1.toNat ∧
      s.1.sequenceParameterSetTable seqId = some sps ∧
      Pps.ListsOf (Pps.matrixPosition bits) sps.header entry.header := by
  obtain ⟨⟨b, manager⟩, hgot, rfl⟩ := Option.map_eq_some_iff.mp hget
  have hfree := (Manager.getBuffer_some hgot).1
  rcases readNalPictureParameterSet_entries h hentry with hold |
    ⟨seqId, sps, t, u, hids, hsps, hbody, hnew⟩
  · exact absurd (s.2.free _ _ hfree) (s.2.picture id _ hold)
  · obtain ⟨hseqId, hflag, hgroups, hbits⟩ := Pps.yields_readIds rfl hids
    rw [hnew]
    exact ⟨seqId, sps, hseqId, hsps, Pps.yields_readBody_lists (s := Pps.withSequence sps t)
      ⟨hflag, rfl⟩ hgroups hbits hbody⟩

/-- The lists of a scaling matrix that is coded where the syntax of a parameter set has
it are in the header that the set leaves in the table. -/
theorem scalingLists_standard (pools : Pools n m) (s : HeldSets n m) (bits : σ)
    (members : SetMembers) :
    (∀ (r : Returned σ n m) id entry,
      readNalSequenceParameterSet pools s.1 bits members = some r →
      (s.1.manager.getBuffer pools.sequenceParameterSetPool).map (·.1) = some entry.buffer →
      r.sets.sequenceParameterSetTable id = some entry →
      Sps.ListsOf (Sps.matrixPosition bits) entry.header) ∧
    ∀ (r : Returned σ n m) id entry,
      readNalPictureParameterSet pools s.1 bits members = some r →
      (s.1.manager.getBuffer pools.pictureParameterSetPool).map (·.1) = some entry.buffer →
      r.sets.pictureParameterSetTable id = some entry →
      ∃ seqId sps, seqId.val = (ue (skip [ue] bits)).1.toNat ∧
        s.1.sequenceParameterSetTable seqId = some sps ∧
        Pps.ListsOf (Pps.matrixPosition bits) sps.header entry.header :=
  ⟨fun _ _ _ h hget hentry => readNalSequenceParameterSet_lists h hget hentry,
    fun _ _ _ h hget hentry => readNalPictureParameterSet_lists h hget hentry⟩

end Sets

/-- A first list whose first next scale is 0, and no other. -/
def firstDefault : ScalingMatrixSyntax where
  list4x4 i := if i = 0 then some ⟨[-8], by decide, by simp [Complete, nextScale]⟩ else none
  list8x8 _ := none

/-- A high profile set with that matrix. -/
def firstDefaultSps : BitList :=
  ⟨[false, true, true, false, false, true, false, false,  -- profile_idc
    false, false, false, false, false, false, false, false,
    false, false, true, false, true, false, false, false,  -- level_idc
    true, false, true, false, true, true, false, true,
    true, false, false, false, false, true, false, false, false, true,
    false, false, false, false, false, false, false,
    true, false, true, true, true, false, true, true, true, true, false, false]⟩

/-- Where list `i` begins. -/
def firstDefaultPosition (i : Nat) : BitList :=
  ⟨(Sps.matrixPosition firstDefaultSps).bits.drop (if i = 0 then 0 else i + 9)⟩

theorem firstDefault_coded : firstDefault.CodedAt true (Sps.matrixPosition firstDefaultSps) := by
  have habsent : ∀ i < 8, 0 < i → (u 1 (firstDefaultPosition i)).1 = 0 ∧
      firstDefaultPosition (i + 1) = (u 1 (firstDefaultPosition i)).2 := by decide
  refine ⟨firstDefaultPosition, rfl, fun i => ?_, fun _ i => habsent (i + 6) (by omega) (by omega)⟩
  by_cases hi : i = 0
  · subst hi
    exact ⟨by decide, by decide, show firstDefaultPosition 1 = _ by decide⟩
  · rw [show firstDefault.list4x4 i = none from if_neg hi]
    exact habsent i (by omega) (by omega)

/-- With a scaling matrix, whose lists are flat. -/
def oneSetHeader : SequenceParameterSetHeader :=
  { Sps.defaultHeader with seqScalingMatrixPresentFlag := 1 }

/-- A set in the first buffer. -/
def oneSet : HeldSets 2 2 :=
  ⟨{ noSets.1 with
      manager := ((noSets.1.manager.getBuffer 0).get (by decide)).2
      sequenceParameterSetTable := fun i => if i = 0 then some ⟨0, oneSetHeader⟩ else none },
    { free := by decide
      sequence := fun i entry h => by
        simp only at h
        split at h
        · obtain rfl := Option.some.inj h
          decide
        · exact absurd h (by simp)
      picture := fun _ _ h =>
        absurd (show (none : Option (PictureEntry 2)) = some _ from h) (by simp) }⟩

/-- A picture parameter set with a scaling matrix of eight lists that are not coded. -/
def noListsPps : BitList :=
  ⟨[true, true, false, false, true, true, true, false,
    false, false, true, true, true, false, false, false,
    true, true, false, false, false, false, false, false,
    false, false, true, true, false, false, false, false]⟩

def noLists : ScalingMatrixSyntax := ⟨fun _ => none, fun _ => none⟩

/-- Where list `i` begins. -/
def noListsPosition (i : Nat) : BitList := ⟨(Pps.matrixPosition noListsPps).bits.drop i⟩

theorem noLists_coded : noLists.CodedAt true (Pps.matrixPosition noListsPps) := by
  have habsent : ∀ i < 8, (u 1 (noListsPosition i)).1 = 0 ∧
      noListsPosition (i + 1) = (u 1 (noListsPosition i)).2 := by decide
  exact ⟨noListsPosition, rfl, fun i => habsent i (by omega), fun _ i => habsent (i + 6) (by omega)⟩

theorem scalingLists_standard_first :
    (∃ (r : Returned BitList 2 2) (entry : SequenceEntry 2),
      readNalSequenceParameterSet twoPools noSets.1 firstDefaultSps default = some r ∧
      r.sets.sequenceParameterSetTable 0 = some entry ∧
      entry.header.scaling.Standard firstDefault ScalingMatrixSyntax.ruleA true) ∧
    ∃ (r : Returned BitList 2 2) (entry : PictureEntry 2),
      readNalPictureParameterSet twoPools oneSet.1 noListsPps default = some r ∧
      r.sets.pictureParameterSetTable 0 = some entry ∧
      entry.header.scaling.Standard noLists (ScalingMatrixSyntax.ruleB oneSetHeader.scaling) true := by
  constructor
  · have hread : ((readNalSequenceParameterSet twoPools noSets.1 firstDefaultSps default).bind
        fun r => (r.sets.sequenceParameterSetTable 0).map fun entry =>
          (entry.buffer, entry.header.seqScalingMatrixPresentFlag)) = some (0, 1) := by
      decide +kernel
    obtain ⟨r, hr, hread⟩ := Option.bind_eq_some_iff.mp hread
    obtain ⟨entry, hentry, hread⟩ := Option.map_eq_some_iff.mp hread
    obtain ⟨hbuffer, hflag⟩ := Prod.mk.inj hread
    refine ⟨r, entry, hr, hentry, ?_⟩
    refine (scalingLists_standard twoPools noSets firstDefaultSps default).1 r 0 entry hr ?_ hentry
      ?_ firstDefault firstDefault_coded
    · rw [hbuffer]
      decide
    · rw [hflag]
      decide
  · have hread : ((readNalPictureParameterSet twoPools oneSet.1 noListsPps default).bind
        fun r => (r.sets.pictureParameterSetTable 0).map fun entry =>
          (entry.buffer, entry.header.picScalingMatrixPresentFlag,
            entry.header.transform8x8ModeFlag)) = some (1, 1, 1) := by
      decide +kernel
    obtain ⟨r, hr, hread⟩ := Option.bind_eq_some_iff.mp hread
    obtain ⟨entry, hentry, hread⟩ := Option.map_eq_some_iff.mp hread
    obtain ⟨hbuffer, hflags⟩ := Prod.mk.inj hread
    obtain ⟨hflag, htransform⟩ := Prod.mk.inj hflags
    refine ⟨r, entry, hr, hentry, ?_⟩
    obtain ⟨seqId, sps, -, hsps, hlists⟩ := (scalingLists_standard twoPools oneSet noListsPps
      default).2 r 0 entry hr (by rw [hbuffer]; decide) hentry
    have hheader : sps.header = oneSetHeader := by
      have hsps : (if seqId = 0 then some ⟨0, oneSetHeader⟩ else none) = some sps := hsps
      split at hsps
      · rw [← Option.some.inj hsps]
      · exact absurd hsps (by simp)
    have hcoded : noLists.CodedAt (entry.header.transform8x8ModeFlag != 0)
        (Pps.matrixPosition noListsPps) := by
      rw [htransform]
      exact noLists_coded
    have hstandard := hlists (by rw [hflag]; decide) noLists hcoded
    rw [htransform, hheader] at hstandard
    exact hstandard

end Duckbox.H264.Coded
