import Duckbox.Fup.ImageRoundTrip
import Duckbox.Lib.Word
import Mathlib.Data.Fintype.Pigeonhole

/-!
# What the walk over an image reads

`readBlock` takes the length of a block for that of an array, and does not look at whether
the array holds what it reads there: the type, the length of the data, the header. A block
that the file does not hold as a whole is given up before any of it is read, and one with
no length ends the walk.

> `extraction_safe_iff`: all reads are in the arrays, what cannot hold a type is given up,
> and the walk ends, exactly if each block that is come to is long enough (`Sound`) and
> none is come to twice.

A block is come to twice only behind 4 GiB, where the position in the file is cut to an
`int32_t` (`blockFrom_ends_of_short`).
-/

namespace Duckbox.Fup

/-! ## The ranges of a block -/

/-- The length a block begins with. -/
def declaredLength (bytes : List Byte) : Nat := (readShort bytes).1.toNat

/-- The file holds all of the block. -/
def Whole (bytes : List Byte) : Prop := declaredLength bytes + 2 ≤ bytes.length

instance (bytes : List Byte) : Decidable (Whole bytes) := inferInstanceAs (Decidable (_ ≤ _))

/-- The type of a block, which is behind its length and its checksum. -/
def blockType (bytes : List Byte) : Short := (extractShort (bytes.drop 4) 0).getD 0

/-- What `readBlock` reads and writes of `dataBuf`, each a place and a length. -/
def blockRanges (bytes : List Byte) (firstBlock : Bool) : List (Nat × Nat) :=
  let len := declaredLength bytes
  if len = 0 then []
  else
    -- `fread` takes `len - 2` for a `size_t`
    let size := (BitVec.ofNat 64 len - 2).toNat
    let got := min size (bytes.drop 4).length
    (0, got) ::
      if got ≠ size then []
      else
        (0, size) :: (0, 2) ::
          if firstBlock && blockType bytes == 0x10 then (List.range 8).map fun i => (2 * i, 2)
          else if (blockType bytes).toNat < maxPartNumber then
            -- `extractAndWrite` takes `len - 6` for a `uint16_t`
            [(2, 2), (4, (BitVec.ofNat 16 len - 6).toNat)]
          else []

/-- A range is in `dataBuf`, an array of `len - 2` bytes. -/
def Inside (len : Nat) (range : Nat × Nat) : Prop := (range.1 + range.2 : Int) ≤ len - 2

instance (len : Nat) (range : Nat × Nat) : Decidable (Inside len range) :=
  inferInstanceAs (Decidable (_ ≤ _))

/-- The length of a block that holds what is read of it. -/
def leastLength (firstBlock : Bool) (type : Short) : Nat :=
  if firstBlock && type == 0x10 then 18 else if type.toNat < maxPartNumber then 6 else 4

/-- A block that ends the walk, is given up, or is long enough. -/
def Sound (bytes : List Byte) (firstBlock : Bool) : Prop :=
  declaredLength bytes = 0 ∨ 3 ≤ declaredLength bytes ∧ ¬ Whole bytes ∨
    leastLength firstBlock (blockType bytes) ≤ declaredLength bytes ∧ Whole bytes

instance (bytes : List Byte) (firstBlock : Bool) : Decidable (Sound bytes firstBlock) :=
  inferInstanceAs (Decidable (_ ∨ _ ∧ _ ∨ _ ∧ _))

variable {bytes file : List Byte} {firstBlock : Bool} {x : Extraction} {p q : Nat}

theorem readShort_snd (bytes : List Byte) : (readShort bytes).2 = bytes.drop 2 := by
  match bytes with
  | [] => rfl
  | [_] => rfl
  | _ :: _ :: _ => rfl

theorem declaredLength_lt (bytes : List Byte) : declaredLength bytes < 2 ^ 16 :=
  (readShort bytes).1.isLt

theorem four_le_leastLength (firstBlock : Bool) (type : Short) : 4 ≤ leastLength firstBlock type := by
  unfold leastLength
  split
  · decide
  · split <;> decide

variable {n : Nat}

theorem length_sub {w len : Nat} (hle : n ≤ len) (hlt : len < 2 ^ w) :
    (BitVec.ofNat w len - BitVec.ofNat w n).toNat = len - n := by
  have hlen : (BitVec.ofNat w len).toNat = len := by
    rw [BitVec.toNat_ofNat, Nat.mod_eq_of_lt hlt]
  rw [Lib.toNat_sub_ofNat (hlen.symm ▸ hle), hlen]

theorem typeRanges_inside_iff {len : Nat} {type : Short} (hle : 4 ≤ len) (hlt : len < 2 ^ 16) :
    (∀ range ∈ (if firstBlock && type == 0x10 then (List.range 8).map fun i => (2 * i, 2)
      else if type.toNat < maxPartNumber then [(2, 2), (4, (BitVec.ofNat 16 len - 6).toNat)]
      else []), Inside len range) ↔ leastLength firstBlock type ≤ len := by
  unfold leastLength
  split
  · constructor
    · intro hinside
      have hlast := hinside (14, 2) (by decide)
      unfold Inside at hlast
      omega
    · intro hlong range hrange
      obtain ⟨i, hi, rfl⟩ := List.mem_map.mp hrange
      have hi' := List.mem_range.mp hi
      unfold Inside
      omega
  · split
    · constructor
      · intro hinside
        have hfirst := hinside (2, 2) List.mem_cons_self
        unfold Inside at hfirst
        omega
      · intro hlong
        have hrest : (BitVec.ofNat 16 len - 6).toNat = len - 6 := length_sub hlong hlt
        rw [hrest]
        refine List.forall_mem_cons.mpr ⟨?_, List.forall_mem_singleton.mpr ?_⟩
        · unfold Inside
          omega
        · unfold Inside
          omega
    · exact ⟨fun _ => hle, fun _ range hrange => absurd hrange List.not_mem_nil⟩

theorem blockRanges_inside_iff :
    (∀ range ∈ blockRanges bytes firstBlock, Inside (declaredLength bytes) range) ↔
      Sound bytes firstBlock := by
  have hlt := declaredLength_lt bytes
  have hleast := four_le_leastLength firstBlock (blockType bytes)
  unfold blockRanges Sound
  dsimp only
  generalize hlen : declaredLength bytes = len at hlt
  by_cases hzero : len = 0
  · rw [if_pos hzero]
    exact ⟨fun _ => .inl hzero, fun _ range hrange => absurd hrange List.not_mem_nil⟩
  · rw [if_neg hzero]
    by_cases htwo : 2 ≤ len
    · have hwhole : 3 ≤ len → (min (len - 2) (bytes.drop 4).length = len - 2 ↔ Whole bytes) := by
        intro hthree
        unfold Whole
        rw [hlen, List.length_drop]
        omega
      have hsize : (BitVec.ofNat 64 len - 2).toNat = len - 2 := length_sub htwo (by omega)
      rw [hsize, List.forall_mem_cons]
      have hfirst : Inside len (0, min (len - 2) (bytes.drop 4).length) := by
        have hmin := Nat.min_le_left (len - 2) (bytes.drop 4).length
        unfold Inside
        omega
      by_cases hgot : min (len - 2) (bytes.drop 4).length = len - 2
      · rw [if_neg (not_not.mpr hgot), List.forall_mem_cons, List.forall_mem_cons]
        have hall : Inside len (0, len - 2) := by
          unfold Inside
          omega
        by_cases hfour : 4 ≤ len
        · have htype : Inside len (0, 2) := by
            unfold Inside
            omega
          rw [typeRanges_inside_iff hfour hlt]
          have hheld := (hwhole (by omega)).mp hgot
          exact ⟨fun h => .inr (.inr ⟨h.2.2.2, hheld⟩), fun h => ⟨hfirst, hall, htype,
            (h.resolve_left hzero).elim (fun hcut => absurd hheld hcut.2) (·.1)⟩⟩
        · refine ⟨fun h => ?_, fun h => ?_⟩
          · -- the type is not in the array
            have htype := h.2.2.1
            unfold Inside at htype
            omega
          · rcases h.resolve_left hzero with ⟨hthree, hcut⟩ | ⟨hlong, -⟩
            · exact absurd ((hwhole hthree).mp hgot) hcut
            · omega
      · rw [if_pos hgot]
        have hthree : 3 ≤ len := by omega
        refine ⟨fun _ => .inr (.inl ⟨hthree, fun hheld => hgot ((hwhole hthree).mpr hheld)⟩), fun _ =>
          ⟨hfirst, fun range hrange => absurd hrange List.not_mem_nil⟩⟩
    · refine ⟨fun h => ?_, fun h => ?_⟩
      · -- the array has less than no bytes
        have hfirst := h _ List.mem_cons_self
        unfold Inside at hfirst
        omega
      · omega

/-! ## What `readBlock` makes of it -/

theorem extractShort_held {dataBuf : List Byte} {pos : Nat} (h : pos + 2 ≤ dataBuf.length) :
    ∃ value, extractShort dataBuf pos = some value := by
  have hdrop : 2 ≤ (dataBuf.drop pos).length := by
    rw [List.length_drop]
    omega
  unfold extractShort
  match dataBuf.drop pos, hdrop with
  | hi :: lo :: _, _ => exact ⟨toShort hi lo, rfl⟩

theorem extractHeader_held {dataBuf : List Byte} (h : 16 ≤ dataBuf.length) :
    ∃ header, extractHeader dataBuf = some header := by
  obtain ⟨v₀, h₀⟩ := @extractShort_held dataBuf 0 (by omega)
  obtain ⟨v₁, h₁⟩ := @extractShort_held dataBuf 2 (by omega)
  obtain ⟨v₂, h₂⟩ := @extractShort_held dataBuf 4 (by omega)
  obtain ⟨v₃, h₃⟩ := @extractShort_held dataBuf 6 (by omega)
  obtain ⟨v₄, h₄⟩ := @extractShort_held dataBuf 8 (by omega)
  obtain ⟨v₅, h₅⟩ := @extractShort_held dataBuf 10 (by omega)
  obtain ⟨v₆, h₆⟩ := @extractShort_held dataBuf 12 (by omega)
  obtain ⟨v₇, h₇⟩ := @extractShort_held dataBuf 14 (by omega)
  refine ⟨⟨v₀, v₁, v₂, v₃, v₄, v₅, v₆, v₇⟩, ?_⟩
  unfold extractHeader
  rw [h₀, h₁, h₂, h₃, h₄, h₅, h₆, h₇]
  rfl

theorem extractShort_take {data : List Byte} (hle : 2 ≤ n) (h : n ≤ data.length) :
    extractShort (data.take n) 0 = some ((extractShort data 0).getD 0) := by
  match data, n with
  | _ :: _ :: _, _ + 2 => rfl
  | [], _ + 2 => exact absurd h (by simp)
  | [_], _ + 2 => exact absurd h (by simp)

theorem readBlock_ends (h : declaredLength bytes = 0 ∨ 3 ≤ declaredLength bytes ∧ ¬ Whole bytes) :
    readBlock x bytes firstBlock = some .ends := by
  have hfirst : readShort bytes = ((readShort bytes).1, bytes.drop 2) :=
    Prod.ext rfl (readShort_snd bytes)
  unfold readBlock
  rw [hfirst]
  dsimp only
  rcases h with hzero | ⟨hthree, hcut⟩
  · have hlen : (readShort bytes).1 = 0 := BitVec.eq_of_toNat_eq hzero
    rw [if_pos hlen]
  · unfold declaredLength at hthree
    unfold Whole declaredLength at hcut
    have hne : (readShort bytes).1 ≠ 0 := by
      intro heq
      rw [heq] at hthree
      exact absurd hthree (by decide)
    rw [if_neg hne, if_neg (by omega), readShort_snd, List.drop_drop, List.length_take,
      List.length_drop, if_pos (by omega)]

theorem readBlock_block (hlong : leastLength firstBlock (blockType bytes) ≤ declaredLength bytes)
    (hwhole : Whole bytes) :
    ∃ x', readBlock x bytes firstBlock = some (.block (declaredLength bytes) x') := by
  have hleast := four_le_leastLength firstBlock (blockType bytes)
  have hfirst : readShort bytes = ((readShort bytes).1, bytes.drop 2) :=
    Prod.ext rfl (readShort_snd bytes)
  have hfour : 4 ≤ declaredLength bytes := hleast.trans hlong
  unfold leastLength at hlong
  unfold Whole at hwhole
  have hlength : (bytes.drop 4).length = bytes.length - 4 := List.length_drop
  have hbuf : ((bytes.drop 4).take (declaredLength bytes - 2)).length = declaredLength bytes - 2 := by
    rw [List.length_take]
    omega
  have hsize : 2 ≤ declaredLength bytes - 2 ∧ declaredLength bytes - 2 ≤ (bytes.drop 4).length := by
    omega
  have htype : extractShort ((bytes.drop (2 + 2)).take ((readShort bytes).1.toNat - 2)) 0 =
      some (blockType bytes) := extractShort_take hsize.1 hsize.2
  have hne : (readShort bytes).1 ≠ 0 := by
    intro heq
    have hzero : declaredLength bytes = 0 := congrArg BitVec.toNat heq
    omega
  unfold readBlock
  rw [hfirst]
  dsimp only
  rw [if_neg hne, readShort_snd, List.drop_drop]
  show ∃ x', (if declaredLength bytes ≤ 2 then none else _) = _
  rw [if_neg (by omega)]
  show ∃ x', (if ((bytes.drop 4).take (declaredLength bytes - 2)).length ≠ declaredLength bytes - 2
    then some BlockRead.ends else _) = _
  rw [if_neg (not_not.mpr hbuf), htype]
  dsimp only
  split
  · next hheader =>
    have heighteen : 18 ≤ declaredLength bytes := by
      rwa [if_pos (by simpa using hheader)] at hlong
    obtain ⟨header, hextract⟩ := extractHeader_held (hbuf.symm ▸ by omega :
      16 ≤ ((bytes.drop 4).take (declaredLength bytes - 2)).length)
    exact ⟨_, congrArg (Option.map _) hextract⟩
  · next hheader =>
    split
    · next hpart =>
      have hsix : 6 ≤ declaredLength bytes := by
        rwa [if_neg (by simpa using hheader), if_pos hpart] at hlong
      show ∃ x', (if declaredLength bytes < 6 then none else _) = _
      rw [if_neg (Nat.not_lt.mpr hsix)]
      exact ⟨_, rfl⟩
    · exact ⟨_, rfl⟩

/-! ## The walk -/

/-- Where the loop of `-x` goes from a block. -/
def nextBlock (file : List Byte) (p : Nat) : Nat :=
  let len := declaredLength (file.drop p)
  seek (p + len + 2) (int32 (int32 p + len + 2))

/-- The loop of `-x` in a number of passes: each reads in the array only, a block that cannot
hold its checksum and a type is given up, and the passes are enough. -/
def SafeWalk (file : List Byte) : Nat → Nat → Bool → Extraction → Prop
  | 0, _, _, _ => False
  | passes + 1, position, firstBlock, x =>
    let bytes := file.drop position
    (∀ range ∈ blockRanges bytes firstBlock, Inside (declaredLength bytes) range) ∧
      (declaredLength bytes < 4 → readBlock x bytes firstBlock = some .ends) ∧
      match readBlock x bytes firstBlock with
      | none => False
      | some .ends => True
      | some (.block len x) =>
        SafeWalk file passes (seek (position + len + 2) (int32 (int32 position + len + 2))) false x

/-- Where the `n`th block is that the lengths lead to. -/
def blockFrom (file : List Byte) : Nat → Nat → Option Nat
  | 0, p => some p
  | n + 1, p =>
    if declaredLength (file.drop p) ≠ 0 ∧ Whole (file.drop p) then blockFrom file n (nextBlock file p)
    else none

theorem blockFrom_next (hgoes : declaredLength (file.drop p) ≠ 0 ∧ Whole (file.drop p)) :
    blockFrom file (n + 1) p = blockFrom file n (nextBlock file p) := by
  rw [blockFrom, if_pos hgoes]

theorem blockFrom_stop (hstop : ¬ (declaredLength (file.drop p) ≠ 0 ∧ Whole (file.drop p))) :
    blockFrom file (n + 1) p = none := by
  rw [blockFrom, if_neg hstop]

theorem readBlock_of_sound (h : Sound bytes firstBlock) :
    (declaredLength bytes ≠ 0 ∧ Whole bytes →
      ∃ x', readBlock x bytes firstBlock = some (.block (declaredLength bytes) x')) ∧
    (¬ (declaredLength bytes ≠ 0 ∧ Whole bytes) → readBlock x bytes firstBlock = some .ends) ∧
    (declaredLength bytes < 4 → readBlock x bytes firstBlock = some .ends) := by
  have hleast := four_le_leastLength firstBlock (blockType bytes)
  rcases h with hzero | hcut | ⟨hlong, hwhole⟩
  · have hends : readBlock x bytes firstBlock = some .ends := readBlock_ends (.inl hzero)
    exact ⟨fun hgoes => absurd hzero hgoes.1, fun _ => hends, fun _ => hends⟩
  · have hends : readBlock x bytes firstBlock = some .ends := readBlock_ends (.inr hcut)
    exact ⟨fun hgoes => absurd hgoes.2 hcut.2, fun _ => hends, fun _ => hends⟩
  · exact ⟨fun _ => readBlock_block hlong hwhole,
      fun hstop => absurd ⟨by omega, hwhole⟩ hstop, fun hshort => by omega⟩

theorem SafeWalk.sound {passes : Nat} (h : SafeWalk file passes p firstBlock x) :
    Sound (file.drop p) firstBlock ∧
      (∀ n q, blockFrom file (n + 1) p = some q → Sound (file.drop q) false) ∧
      blockFrom file passes p = none := by
  induction passes generalizing p firstBlock x with
  | zero => exact h.elim
  | succ passes ih =>
    obtain ⟨hinside, -, hrest⟩ := h
    have hsound := blockRanges_inside_iff.mp hinside
    obtain ⟨hblock, -, -⟩ := @readBlock_of_sound _ firstBlock x hsound
    by_cases hgoes : declaredLength (file.drop p) ≠ 0 ∧ Whole (file.drop p)
    · obtain ⟨x', hx'⟩ := hblock hgoes
      rw [hx'] at hrest
      obtain ⟨hnext, hlater, hends⟩ := ih hrest
      refine ⟨hsound, fun n q hq => ?_, (blockFrom_next hgoes).trans hends⟩
      rw [blockFrom_next hgoes] at hq
      cases n with
      | zero =>
        obtain rfl := Option.some.inj hq
        exact hnext
      | succ n => exact hlater n q hq
    · refine ⟨hsound, fun n q hq => ?_, blockFrom_stop hgoes⟩
      rw [blockFrom_stop hgoes] at hq
      exact nomatch hq

theorem SafeWalk.of_sound (hsound : Sound (file.drop p) firstBlock)
    (hlater : ∀ n q, blockFrom file (n + 1) p = some q → Sound (file.drop q) false)
    (hends : blockFrom file n p = none) : ∃ passes, SafeWalk file passes p firstBlock x := by
  induction n generalizing p firstBlock x with
  | zero => exact nomatch hends
  | succ n ih =>
    have hinside := blockRanges_inside_iff.mpr hsound
    obtain ⟨hblock, hstops, hshort⟩ := @readBlock_of_sound _ firstBlock x hsound
    by_cases hgoes : declaredLength (file.drop p) ≠ 0 ∧ Whole (file.drop p)
    · obtain ⟨x', hx'⟩ := hblock hgoes
      rw [blockFrom_next hgoes] at hends
      have hnext := hlater 0 _ (blockFrom_next hgoes)
      obtain ⟨passes, hrest⟩ := @ih false x' (nextBlock file p) hnext
        (fun n q hq => hlater (n + 1) q ((blockFrom_next hgoes).trans hq)) hends
      refine ⟨passes + 1, hinside, hshort, ?_⟩
      rw [hx']
      exact hrest
    · refine ⟨1, hinside, hshort, ?_⟩
      rw [hstops hgoes]
      trivial

/-! ## The end of the walk -/

theorem blockFrom_add (m n : Nat) :
    blockFrom file (m + n) p = (blockFrom file m p).bind (blockFrom file n) := by
  induction m generalizing p with
  | zero =>
    rw [Nat.zero_add]
    rfl
  | succ m ih =>
    rw [Nat.succ_add_eq_add_succ, Nat.add_succ]
    by_cases hgoes : declaredLength (file.drop p) ≠ 0 ∧ Whole (file.drop p)
    · rw [blockFrom_next hgoes, blockFrom_next hgoes, ih]
    · rw [blockFrom_stop hgoes, blockFrom_stop hgoes, Option.bind_none]

theorem nextBlock_le_end (file : List Byte) (p : Nat) :
    nextBlock file p ≤ p + declaredLength (file.drop p) + 2 := by
  unfold nextBlock
  dsimp only
  generalize declaredLength (file.drop p) = len
  have hpos : int32 (int32 p + len + 2) ≤ p + len + 2 := by
    unfold int32
    omega
  unfold seek
  split
  · exact Nat.le_refl _
  · omega

theorem blockFrom_le (hp : p ≤ file.length) (h : blockFrom file n p = some q) :
    q ≤ file.length := by
  induction n generalizing p with
  | zero =>
    obtain rfl := Option.some.inj h
    exact hp
  | succ n ih =>
    by_cases hgoes : declaredLength (file.drop p) ≠ 0 ∧ Whole (file.drop p)
    · rw [blockFrom_next hgoes] at h
      refine ih ?_ h
      have hend := nextBlock_le_end file p
      have hwhole := hgoes.2
      unfold Whole at hwhole
      rw [List.length_drop] at hwhole
      omega
    · rw [blockFrom_stop hgoes] at h
      exact nomatch h

theorem blockFrom_round {d : Nat} (hround : blockFrom file d p = some p) (rounds : Nat) :
    blockFrom file (rounds * d) p = some p := by
  induction rounds with
  | zero =>
    rw [Nat.zero_mul]
    rfl
  | succ rounds ih =>
    rw [Nat.succ_mul, blockFrom_add, ih]
    exact hround

theorem blockFrom_none {m : Nat} (hle : m ≤ n) (h : blockFrom file m p = none) :
    blockFrom file n p = none := by
  obtain ⟨k, rfl⟩ := Nat.exists_eq_add_of_le hle
  rw [blockFrom_add, h, Option.bind_none]

theorem blockFrom_ends_iff : (∃ n, blockFrom file n 0 = none) ↔
    ∀ m n p, blockFrom file m 0 = some p → blockFrom file n 0 = some p → m = n := by
  constructor
  · rintro ⟨last, hlast⟩
    have hbefore : ∀ m n p, m < n → blockFrom file m 0 = some p →
        blockFrom file n 0 = some p → False := by
      intro m n p hlt hm hn
      have hround : blockFrom file (n - m) p = some p := by
        have hcut := @blockFrom_add file 0 m (n - m)
        rw [Nat.add_sub_cancel' hlt.le, hn, hm] at hcut
        exact hcut.symm
      have hfar : blockFrom file (m + last * (n - m)) 0 = some p := by
        rw [blockFrom_add, hm]
        exact blockFrom_round hround last
      have hle : last ≤ m + last * (n - m) := by
        have hpos : last * 1 ≤ last * (n - m) := Nat.mul_le_mul_left last (by omega)
        omega
      rw [blockFrom_none hle hlast] at hfar
      exact nomatch hfar
    intro m n p hm hn
    rcases Nat.lt_trichotomy m n with hlt | heq | hlt
    · exact (hbefore m n p hlt hm hn).elim
    · exact heq
    · exact (hbefore n m p hlt hn hm).elim
  · intro honce
    by_contra hnever
    push Not at hnever
    -- no more places than bytes, and one
    have hplace : ∀ n, ∃ p : Fin (file.length + 1), blockFrom file n 0 = some p.val := by
      intro n
      obtain ⟨p, hp⟩ := Option.ne_none_iff_exists'.mp (hnever n)
      exact ⟨⟨p, Nat.lt_succ_of_le (blockFrom_le (Nat.zero_le _) hp)⟩, hp⟩
    choose place hplace using hplace
    obtain ⟨m, n, hne, heq⟩ := Finite.exists_ne_map_eq_of_infinite place
    exact hne (honce m n _ (hplace m) (heq ▸ hplace n))

theorem nextBlock_eq (hwhole : Whole (file.drop p)) (hp : p ≤ file.length)
    (hshort : file.length < 2 ^ 32) :
    nextBlock file p = p + declaredLength (file.drop p) + 2 := by
  unfold Whole at hwhole
  rw [List.length_drop] at hwhole
  unfold nextBlock
  dsimp only
  generalize declaredLength (file.drop p) = len at hwhole
  generalize hend : p + len + 2 = position
  have hlt : position < 2 ^ 32 := by omega
  have hpos : int32 (int32 p + len + 2) < 0 ∨ int32 (int32 p + len + 2) = position := by
    unfold int32
    omega
  unfold seek
  rcases hpos with hnegative | heq
  · rw [if_pos hnegative]
  · rw [heq, if_neg (by omega), Int.toNat_natCast]

theorem blockFrom_far (hshort : file.length < 2 ^ 32) (hp : p ≤ file.length)
    (h : blockFrom file n p = some q) : p + n ≤ q ∧ q ≤ file.length := by
  induction n generalizing p with
  | zero =>
    obtain rfl := Option.some.inj h
    exact ⟨Nat.le_refl _, hp⟩
  | succ n ih =>
    by_cases hgoes : declaredLength (file.drop p) ≠ 0 ∧ Whole (file.drop p)
    · rw [blockFrom_next hgoes, nextBlock_eq hgoes.2 hp hshort] at h
      have hwhole := hgoes.2
      unfold Whole at hwhole
      rw [List.length_drop] at hwhole
      obtain ⟨hfar, hend⟩ := ih (by omega) h
      exact ⟨by omega, hend⟩
    · rw [blockFrom_stop hgoes] at h
      exact nomatch h

/-- The walk over a file of less than 4 GiB ends. -/
theorem blockFrom_ends_of_short (hshort : file.length < 2 ^ 32) :
    ∃ n, blockFrom file n 0 = none := by
  refine ⟨file.length + 1, ?_⟩
  cases h : blockFrom file (file.length + 1) 0 with
  | none => rfl
  | some q =>
    have hfar := blockFrom_far hshort (Nat.zero_le _) h
    omega

/-- An image is read in the arrays only, what cannot hold a checksum and a type is given up,
and the walk ends, exactly if each block the lengths lead to is sound, and none is come to
twice. -/
theorem extraction_safe_iff (file : List Byte) :
    (∃ passes, SafeWalk file passes 0 true ⟨fun _ => none, none, 0, 0⟩) ↔
      (∀ n p, blockFrom file n 0 = some p → Sound (file.drop p) (n == 0)) ∧
        ∀ m n p, blockFrom file m 0 = some p → blockFrom file n 0 = some p → m = n := by
  rw [← blockFrom_ends_iff]
  constructor
  · rintro ⟨passes, h⟩
    obtain ⟨hfirst, hlater, hends⟩ := h.sound
    refine ⟨fun n p hp => ?_, passes, hends⟩
    cases n with
    | zero =>
      obtain rfl := Option.some.inj hp
      exact hfirst
    | succ n => exact hlater n p hp
  · rintro ⟨hsound, last, hends⟩
    exact SafeWalk.of_sound (hsound 0 0 rfl) (fun n p hp => hsound (n + 1) p hp) hends

/-- A block of the application with two bytes, neither of which is behind its type. -/
theorem shortBlock_unsafe :
    ¬ ∃ passes, SafeWalk [0, 4, 0, 0, 0, 1] passes 0 true ⟨fun _ => none, none, 0, 0⟩ := by
  rintro ⟨passes, h⟩
  exact absurd h.sound.1 (by decide)

end Duckbox.Fup
