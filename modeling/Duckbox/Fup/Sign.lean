import Duckbox.Fup.Crc
import Duckbox.Lib.Chunks

/-!
# fup signs and tests

`fup -s` copies a file and appends a checksum of it, `fup -t` computes the checksum
of such a file and reads the one at its end. Both read 0x2710 bytes at a time until
a read comes back short, and take the first byte of the buffer after every read,
the one that finds nothing left included; the tester does not leave the checksum at
the end of the file out. So the two take the same bytes where the last read of the
signer finds something and the checksum fits behind it (`test_agrees`), and the
tester reads in front of its buffer where the checksum is cut in two
(`testLoop_cut`). What remains are the files of whole reads, whose tester takes the
low byte of the checksum in place of the byte the signer took twice
(`agrees_iff`).

Reading what was never written, or in front of the buffer, is `none`.
-/

namespace Duckbox.Fup

/-- `uint32_t`. -/
abbrev Word := BitVec 32

/-- The size of the buffer. -/
abbrev chunkSize : Nat := 0x2710

/-- The buffer after a read of `chunk`. -/
def fill (buffer chunk : List Byte) : List Byte := chunk ++ buffer.drop chunk.length

/-- `fwrite( &crc, 1, 4, signedFile )` on a little-endian machine. -/
def footerBytes (crc : Word) : List Byte :=
  [crc.extractLsb' 0 8, crc.extractLsb' 8 8, crc.extractLsb' 16 8, crc.extractLsb' 24 8]

/-- The last four of the `count` bytes read, as a number. -/
def footerOf (buffer : List Byte) (count : Nat) : Option Word :=
  if count < 4 then none
  else
    some
      (((buffer.getD (count - 1) 0).zeroExtend 32 <<< 24)
        + ((buffer.getD (count - 2) 0).zeroExtend 32 <<< 16)
        + ((buffer.getD (count - 3) 0).zeroExtend 32 <<< 8)
        + (buffer.getD (count - 4) 0).zeroExtend 32)

/-- The loop of `-s`: what is written, and the checksum. -/
def signLoop (buffer rest : List Byte) (crc : Word) : Option (List Byte × Word) :=
  let chunk := rest.take chunkSize
  let buffer := fill buffer chunk
  match buffer.head? with
  | none => none
  | some first =>
    let crc := crc32 crc [first]
    if _h : chunk.length < chunkSize then some (chunk, crc)
    else
      (signLoop buffer (rest.drop chunkSize) crc).map fun (written, crc) => (chunk ++ written, crc)
termination_by rest.length
decreasing_by
  have hpos : 0 < chunkSize := by decide
  rw [List.length_take] at _h
  rw [List.length_drop]
  omega

/-- `fup -s`: the signed file, and the checksum at its end. -/
def sign (file : List Byte) : Option (List Byte × Word) :=
  (signLoop [] file 0).map fun (written, crc) => (written ++ footerBytes crc, crc)

/-- The loop of `-t`: `crc` and `orgcrc`. -/
def testLoop (buffer rest : List Byte) (crc orgcrc : Word) : Option (Word × Word) :=
  let chunk := rest.take chunkSize
  let buffer := fill buffer chunk
  let orgcrc := if chunk.length ≠ chunkSize then footerOf buffer chunk.length else some orgcrc
  match orgcrc, buffer.head? with
  | some orgcrc, some first =>
    let crc := crc32 crc [first]
    if _h : chunk.length < chunkSize then some (crc, orgcrc)
    else testLoop buffer (rest.drop chunkSize) crc orgcrc
  | _, _ => none
termination_by rest.length
decreasing_by
  have hpos : 0 < chunkSize := by decide
  rw [List.length_take] at _h
  rw [List.length_drop]
  omega

/-- `fup -t`: "Signed footer" and "Original Signed footer". -/
def test (file : List Byte) : Option (Word × Word) := testLoop [] file 0 0

/-- What `-t` computes of a file that `-s` has made is the checksum at its end. -/
def Agrees (file : List Byte) : Prop :=
  ∃ signed footer orgcrc, sign file = some (signed, footer) ∧
    test signed = some (footer, orgcrc)

/-! ## The loops, one read at a time -/

section

variable {buffer rest footer : List Byte} {crc orgcrc : Word} {b : Byte}

theorem fill_full (buffer : List Byte) (h : chunkSize ≤ rest.length) (hb : rest.head? = some b) :
    (rest.take chunkSize).length = chunkSize ∧
      (fill buffer (rest.take chunkSize)).head? = some b := by
  have hlen : (rest.take chunkSize).length = chunkSize := by
    rw [List.length_take]
    exact Nat.min_eq_left h
  refine ⟨hlen, ?_⟩
  unfold fill
  cases rest with
  | nil => exact absurd hb (by simp)
  | cons a rest => exact hb

theorem signLoop_full (buffer : List Byte) (crc : Word) (h : chunkSize ≤ rest.length)
    (hb : rest.head? = some b) :
    signLoop buffer rest crc
      = (signLoop (fill buffer (rest.take chunkSize)) (rest.drop chunkSize) (crc32 crc [b])).map
          fun (written, crc) => (rest.take chunkSize ++ written, crc) := by
  obtain ⟨hlen, hhead⟩ := fill_full buffer h hb
  rw [signLoop]
  simp only [hhead, hlen, Nat.lt_irrefl, dite_false]

theorem signLoop_short (h : rest.length < chunkSize) (hb : (fill buffer rest).head? = some b) :
    signLoop buffer rest crc = some (rest, crc32 crc [b]) := by
  have htake : rest.take chunkSize = rest := List.take_of_length_le (Nat.le_of_lt h)
  rw [signLoop]
  simp only [htake, hb, h, dite_true]

theorem testLoop_full (buffer : List Byte) (crc orgcrc : Word) (h : chunkSize ≤ rest.length)
    (hb : rest.head? = some b) :
    testLoop buffer rest crc orgcrc
      = testLoop (fill buffer (rest.take chunkSize)) (rest.drop chunkSize) (crc32 crc [b])
          orgcrc := by
  obtain ⟨hlen, hhead⟩ := fill_full buffer h hb
  rw [testLoop]
  simp only [hhead, hlen, ne_eq, not_true_eq_false, if_false, Nat.lt_irrefl, dite_false]

theorem testLoop_last (buffer : List Byte) (crc orgcrc : Word)
    (hlen : (rest ++ footer).length < chunkSize) (hfooter : footer.length = 4)
    (hb : (rest ++ footer).head? = some b) :
    ∃ orgcrc', testLoop buffer (rest ++ footer) crc orgcrc = some (crc32 crc [b], orgcrc') := by
  have htake : (rest ++ footer).take chunkSize = rest ++ footer :=
    List.take_of_length_le (Nat.le_of_lt hlen)
  have hhead : (fill buffer (rest ++ footer)).head? = some b := by
    unfold fill
    cases hall : rest ++ footer with
    | nil => rw [hall] at hb; exact absurd hb (by simp)
    | cons a more => rw [hall] at hb; exact hb
  have hfour : ¬ (rest ++ footer).length < 4 := by
    rw [List.length_append, hfooter]
    omega
  rw [testLoop]
  simp only [htake, hhead, Nat.ne_of_lt hlen, ne_eq, not_false_eq_true, if_true, footerOf, hfour,
    if_false, hlen, dite_true]
  exact ⟨_, rfl⟩

theorem testLoop_cut (h : rest.length < 4) : testLoop buffer rest crc orgcrc = none := by
  have hshort : rest.length < chunkSize := Nat.lt_trans h (by decide)
  have htake : rest.take chunkSize = rest := List.take_of_length_le (Nat.le_of_lt hshort)
  rw [testLoop]
  simp only [htake, Nat.ne_of_lt hshort, ne_eq, not_false_eq_true, if_true, footerOf, h]

end

/-! ## Whole files -/

theorem read_induction {P : List Byte → Prop} (hshort : ∀ rest, rest.length < chunkSize → P rest)
    (hfull : ∀ b rest, chunkSize ≤ (b :: rest).length → P ((b :: rest).drop chunkSize) →
      P (b :: rest)) (file : List Byte) : P file := by
  refine Lib.piece_induction (n := chunkSize) (by decide) hshort (fun rest hlen ih => ?_) file
  cases rest with
  | nil => exact absurd hlen (by decide)
  | cons b rest => exact hfull b rest hlen ih

theorem drop_mod {rest : List Byte} (h : chunkSize ≤ rest.length) :
    (rest.drop chunkSize).length % chunkSize = rest.length % chunkSize := by
  rw [List.length_drop, ← Nat.mod_eq_sub_mod h]

/-- The first byte of every read of a file. -/
def chunkFirsts : List Byte → List Byte
  | [] => []
  | b :: rest => b :: chunkFirsts (rest.drop (chunkSize - 1))
termination_by file => file.length
decreasing_by
  rw [List.length_drop, List.length_cons]
  omega

theorem chunkFirsts_full {b : Byte} {rest : List Byte} :
    chunkFirsts (b :: rest) = b :: chunkFirsts ((b :: rest).drop chunkSize) := by
  rw [chunkFirsts]
  rfl

section

variable {footer : List Byte}

theorem signLoop_copies (rest : List Byte) : ∀ {buffer written : List Byte} {crc crc' : Word},
    signLoop buffer rest crc = some (written, crc') → written = rest := by
  induction rest using read_induction with
  | hshort rest hlen =>
    intro buffer written crc crc' h
    cases hb : (fill buffer rest).head? with
    | none =>
      have htake : rest.take chunkSize = rest := List.take_of_length_le (Nat.le_of_lt hlen)
      rw [signLoop] at h
      simp only [htake, hb] at h
      exact absurd h (by simp)
    | some b =>
      rw [signLoop_short hlen hb] at h
      exact (Prod.mk.inj (Option.some.inj h)).1.symm
  | hfull b rest hlen ih =>
    intro buffer written crc crc' h
    rw [signLoop_full _ _ hlen rfl] at h
    obtain ⟨⟨written', crc''⟩, hrest, heq⟩ := Option.map_eq_some_iff.mp h
    obtain ⟨rfl, rfl⟩ := Prod.mk.inj heq
    rw [ih hrest, List.take_append_drop]

theorem loops_agree (hfooter : footer.length = 4) (rest : List Byte) :
    0 < rest.length % chunkSize → rest.length % chunkSize + 4 < chunkSize →
      ∀ (buffer : List Byte) (crc orgcrc : Word), ∃ crc' orgcrc',
        signLoop buffer rest crc = some (rest, crc') ∧
          testLoop buffer (rest ++ footer) crc orgcrc = some (crc', orgcrc') := by
  induction rest using read_induction with
  | hshort rest hlen =>
    intro hpos hfits buffer crc orgcrc
    rw [Nat.mod_eq_of_lt hlen] at hpos hfits
    cases rest with
    | nil => exact absurd hpos (Nat.lt_irrefl 0)
    | cons b rest =>
      have hall : (b :: rest ++ footer).length < chunkSize := by
        rw [List.length_append, hfooter]
        exact hfits
      obtain ⟨orgcrc', htest⟩ :=
        testLoop_last buffer crc orgcrc hall hfooter rfl
      exact ⟨_, orgcrc', signLoop_short hlen rfl, htest⟩
  | hfull b rest hlen ih =>
    intro hpos hfits buffer crc orgcrc
    rw [← drop_mod hlen] at hpos hfits
    obtain ⟨crc', orgcrc', hsign, htest⟩ :=
      ih hpos hfits (fill buffer ((b :: rest).take chunkSize)) (crc32 crc [b]) orgcrc
    refine ⟨crc', orgcrc', ?_, ?_⟩
    · rw [signLoop_full _ _ hlen rfl, hsign, Option.map_some]
      dsimp only
      rw [List.take_append_drop]
    · rw [testLoop_full _ _ _ (Nat.le_trans hlen (by simp)) rfl,
        List.take_append_of_le_length hlen, List.drop_append_of_le_length hlen]
      exact htest

theorem testLoop_beyond (hfooter : footer.length = 4) (rest : List Byte) :
    chunkSize ≤ rest.length % chunkSize + 4 → ∀ (buffer : List Byte) (crc orgcrc : Word),
      testLoop buffer (rest ++ footer) crc orgcrc = none := by
  induction rest using read_induction with
  | hshort rest hlen =>
    intro hbeyond buffer crc orgcrc
    rw [Nat.mod_eq_of_lt hlen] at hbeyond
    cases rest with
    | nil => exact absurd hbeyond (by decide)
    | cons b rest =>
      have hall : chunkSize ≤ (b :: rest ++ footer).length := by
        rw [List.length_append, hfooter]
        exact hbeyond
      rw [testLoop_full _ _ _ hall rfl]
      apply testLoop_cut
      rw [List.length_drop, List.length_append, hfooter]
      omega
  | hfull b rest hlen ih =>
    intro hbeyond buffer crc orgcrc
    rw [testLoop_full _ _ _ (Nat.le_trans hlen (by simp)) rfl,
      List.take_append_of_le_length hlen, List.drop_append_of_le_length hlen]
    exact ih (by rw [drop_mod hlen]; exact hbeyond) _ _ _

theorem loops_whole (c0 c1 c2 c3 : Byte) (rest : List Byte) :
    rest.length % chunkSize = 0 → rest ≠ [] →
      ∀ (buffer : List Byte) (crc orgcrc : Word), ∃ orgcrc',
        signLoop buffer rest crc
            = some (rest, crc32 crc (chunkFirsts rest ++ [(chunkFirsts rest).getLastD 0])) ∧
          testLoop buffer (rest ++ [c0, c1, c2, c3]) crc orgcrc
            = some (crc32 crc (chunkFirsts rest ++ [c0]), orgcrc') := by
  induction rest using read_induction with
  | hshort rest hlen =>
    intro hzero hne
    rw [Nat.mod_eq_of_lt hlen] at hzero
    exact absurd (List.eq_nil_of_length_eq_zero hzero) hne
  | hfull b rest hlen ih =>
    intro hzero hne buffer crc orgcrc
    have hsign := signLoop_full buffer crc hlen rfl
    have hlonger : chunkSize ≤ (b :: rest ++ [c0, c1, c2, c3]).length :=
      Nat.le_trans hlen (by simp)
    have htest := testLoop_full buffer crc orgcrc hlonger rfl
    rw [List.take_append_of_le_length hlen, List.drop_append_of_le_length hlen] at htest
    rw [hsign, htest, chunkFirsts_full]
    by_cases hnil : (b :: rest).drop chunkSize = []
    · -- the read that finds nothing left has the last buffer still
      have hhead : (fill (fill buffer ((b :: rest).take chunkSize)) []).head? = some b := rfl
      have hfour : (([] : List Byte) ++ [c0, c1, c2, c3]).length < chunkSize :=
        Nat.lt_of_sub_pos (by decide : 0 < chunkSize - 4)
      obtain ⟨orgcrc', hlast⟩ := testLoop_last (fill buffer ((b :: rest).take chunkSize))
        (crc32 crc [b]) orgcrc hfour rfl rfl
      have htake : (b :: rest).take chunkSize = b :: rest := by
        rw [← List.append_nil (List.take _ _), ← hnil, List.take_append_drop]
      rw [hnil, signLoop_short (by decide) hhead, htake, chunkFirsts]
      refine ⟨orgcrc', ?_, ?_⟩
      · rw [Option.map_some, ← crc32_append]
        dsimp only
        rw [List.append_nil]
        rfl
      · rw [htake] at hlast
        rw [crc32_append crc [b] [c0]]
        exact hlast
    · obtain ⟨orgcrc', hsign', htest'⟩ := ih (by rw [drop_mod hlen]; exact hzero) hnil
        (fill buffer ((b :: rest).take chunkSize)) (crc32 crc [b]) orgcrc
      have hlast : (b :: chunkFirsts ((b :: rest).drop chunkSize)).getLastD 0
          = (chunkFirsts ((b :: rest).drop chunkSize)).getLastD 0 := by
        cases hdrop : (b :: rest).drop chunkSize with
        | nil => exact absurd hdrop hnil
        | cons a more => rw [chunkFirsts]; rfl
      refine ⟨orgcrc', ?_, ?_⟩
      · rw [hsign', Option.map_some, hlast, ← crc32_append]
        dsimp only
        rw [List.take_append_drop]
        rfl
      · rw [htest', ← crc32_append]
        rfl

end

/-- The low byte of the checksum of a file of whole reads is the byte that the signer
has taken twice. -/
def LowByteRepeats (file : List Byte) : Prop :=
  (crc32 0 (chunkFirsts file ++ [(chunkFirsts file).getLastD 0])).extractLsb' 0 8
    = (chunkFirsts file).getLastD 0

/-- The tester computes the checksum of the signer exactly if the file is not empty
and its length, divided by the size of the buffer, leaves between 1 and 9995, or
leaves nothing and the low byte of the checksum is by chance the byte the signer has
taken twice. -/
theorem agrees_iff (file : List Byte) :
    Agrees file ↔ file ≠ [] ∧
      (0 < file.length % 0x2710 ∧ file.length % 0x2710 ≤ 9995 ∨
        file.length % 0x2710 = 0 ∧ LowByteRepeats file) := by
  have hchunk : chunkSize = 10000 := rfl
  by_cases hnil : file = []
  · refine iff_of_false (fun ⟨signed, footer, orgcrc, hsign, _⟩ => ?_) fun h => h.1 hnil
    have hnone : signLoop [] [] 0 = none := by
      rw [signLoop]
      rfl
    rw [hnil, sign, hnone] at hsign
    exact absurd hsign (by simp)
  rw [and_iff_right hnil]
  have hlt : file.length % chunkSize < chunkSize := Nat.mod_lt _ (by decide)
  show _ ↔ 0 < file.length % chunkSize ∧ file.length % chunkSize ≤ 9995 ∨
    file.length % chunkSize = 0 ∧ _
  by_cases hbeyond : chunkSize ≤ file.length % chunkSize + 4
  · refine iff_of_false (fun ⟨signed, footer, orgcrc, hsign, htest⟩ => ?_) fun h => ?_
    · obtain ⟨⟨written, crc⟩, hloop, heq⟩ := Option.map_eq_some_iff.mp hsign
      obtain ⟨rfl, rfl⟩ := Prod.mk.inj heq
      rw [test, signLoop_copies file hloop, testLoop_beyond rfl file hbeyond] at htest
      exact absurd htest (by simp)
    · rcases h with ⟨-, hle⟩ | ⟨hzero, -⟩ <;> omega
  by_cases hzero : file.length % chunkSize = 0
  · -- the files of whole reads
    have hloops := fun c0 c1 c2 c3 => loops_whole c0 c1 c2 c3 file
      hzero hnil [] 0 0
    generalize hcrc : crc32 0 (chunkFirsts file ++ [(chunkFirsts file).getLastD 0]) = crc at hloops
    have hrepeats : LowByteRepeats file ↔
        crc.extractLsb' 0 8 = (chunkFirsts file).getLastD 0 := by
      rw [LowByteRepeats, hcrc]
    obtain ⟨orgcrc', hsign, htest⟩ := hloops (crc.extractLsb' 0 8) (crc.extractLsb' 8 8)
      (crc.extractLsb' 16 8) (crc.extractLsb' 24 8)
    have hagrees : Agrees file ↔
        crc32 0 (chunkFirsts file ++ [crc.extractLsb' 0 8]) = crc := by
      have hsigned : sign file = some (file ++ footerBytes crc, crc) := by
        rw [sign, hsign]
        rfl
      constructor
      · intro ⟨signed, footer, orgcrc, hs, ht⟩
        obtain ⟨rfl, rfl⟩ := Prod.mk.inj (Option.some.inj (hsigned.symm.trans hs))
        exact (Prod.mk.inj (Option.some.inj (htest.symm.trans ht))).1
      · intro h
        refine ⟨_, crc, orgcrc', hsigned, ?_⟩
        rw [h] at htest
        exact htest
    rw [hagrees, hrepeats]
    constructor
    · intro h
      refine .inr ⟨hzero, ?_⟩
      have hlast : crc32 (crc32 0 (chunkFirsts file)) [crc.extractLsb' 0 8]
          = crc32 (crc32 0 (chunkFirsts file)) [(chunkFirsts file).getLastD 0] := by
        rw [← crc32_append, ← crc32_append, h, hcrc]
      exact crc32_singleton_inj hlast
    · intro h
      rcases h with ⟨hpos, -⟩ | ⟨-, hlow⟩
      · omega
      · rw [hlow, hcrc]
  · refine iff_of_true ?_ (.inl ⟨by omega, by omega⟩)
    have hloop := fun (footer : List Byte) (h : footer.length = 4) => loops_agree h file (by omega) (by omega)
      [] 0 0
    obtain ⟨crc, orgcrc, hsign, -⟩ := hloop (footerBytes 0) rfl
    obtain ⟨crc', orgcrc', hsign', htest⟩ := hloop (footerBytes crc) rfl
    obtain ⟨-, rfl⟩ := Prod.mk.inj (Option.some.inj (hsign.symm.trans hsign'))
    exact ⟨file ++ footerBytes crc, crc, orgcrc', by rw [sign, hsign]; rfl, htest⟩

/-- Of 10000 zero bytes the signer takes two, and the tester one and the low byte of
the checksum of two, which is not zero. -/
theorem test_disagrees : ¬ Agrees (List.replicate 0x2710 0) := by
  have hlen : (List.replicate chunkSize (0 : Byte)).length = chunkSize := List.length_replicate
  have hcons : List.replicate chunkSize (0 : Byte) = 0 :: List.replicate 9999 0 :=
    List.replicate_succ
  have hfirsts : chunkFirsts (List.replicate chunkSize 0) = [0] := by
    rw [hcons, chunkFirsts_full, ← hcons, List.drop_replicate, Nat.sub_self]
    rw [List.replicate_zero, chunkFirsts]
  have hcrc : crc32 0 [0, 0] = 0x41d912ff := by decide +kernel
  have hne : List.replicate chunkSize (0 : Byte) ≠ [] := by
    rw [hcons]
    exact List.cons_ne_nil _ _
  obtain ⟨orgcrc, hsign, htest⟩ := loops_whole 0xff 0x12 0xd9 0x41
    (List.replicate chunkSize 0) (by rw [hlen, Nat.mod_self]) hne [] 0 0
  rw [hfirsts] at hsign htest
  intro ⟨signed, footer, orgcrc', hs, ht⟩
  rw [sign, hsign] at hs
  obtain ⟨rfl, rfl⟩ := Prod.mk.inj (Option.some.inj hs)
  have hfooter : footerBytes (crc32 0 [0, 0]) = [0xff, 0x12, 0xd9, 0x41] := by decide +kernel
  have ht' : testLoop [] (List.replicate chunkSize 0 ++ footerBytes (crc32 0 [0, 0])) 0 0
      = some (crc32 0 [0, 0], orgcrc') := ht
  rw [hfooter] at ht'
  have hsame := (Prod.mk.inj (Option.some.inj (htest.symm.trans ht'))).1
  exact absurd hsame (by decide +kernel)

end Duckbox.Fup
