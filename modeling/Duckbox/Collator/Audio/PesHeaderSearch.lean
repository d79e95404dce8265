import Duckbox.Collator.Audio.CutCodes

/-!
# The search for a PES header

`SearchForPesHeader` of the audio collator over chunk after chunk, until it locks to a
start code outside the range that is ignored; which range that is differs between the
sub-classes.

> `seek_exact_iff`: it locks to the first such code, and throws nothing away behind its
> beginning, exactly where that is not lost between chunks (`Caught`), and the buffer has
> room for the code where it is put together.

The search alone is run: what comes with a chunk, and flushes between two, are left out.
-/

namespace Duckbox.Collator.Audio

open Collator2 (CollatorStatus)
open Lib (Pass)

variable (ignored : Byte → Bool) (limit : Nat)

/-! ## The search -/

/-- The chunks that are searched, until the collator locks: with what, what is left of the
chunk, and what is to come. A search that goes on leaves nothing of its chunk. -/
def seek : PesAudio → List (List Byte) →
    Except CollatorStatus (PesAudio × List Byte × List (List Byte))
  | s, [] => .ok (s, [], [])
  | s, [] :: chunks => seek s chunks
  | s, (b :: bytes) :: chunks =>
    match searchForPesHeader ignored limit s (b :: bytes) with
    | .stop e => .error e
    | .again t rest => if t.seekingPesHeader then seek t chunks else .ok (t, rest, chunks)

/-! ## Chunks as a stream that is cut -/

/-- The bytes of the chunks, and their ends. -/
def symbols (chunks : List (List Byte)) : List Symbol :=
  chunks.flatMap fun chunk => chunk.map some ++ [none]

/-- Where the chunks end, from place `n` on. -/
def chunkEnds : Nat → List (List Byte) → List Nat
  | _, [] => []
  | n, chunk :: chunks => (n + chunk.length) :: chunkEnds (n + chunk.length) chunks

theorem symbols_cons (chunk : List Byte) (chunks : List (List Byte)) :
    symbols (chunk :: chunks) = chunk.map some ++ none :: symbols chunks := by
  unfold symbols
  rw [List.flatMap_cons, List.append_assoc]
  rfl

theorem bytesOf_append (bytes : List Byte) (xs : List Symbol) :
    bytesOf (bytes.map some ++ xs) = bytes ++ bytesOf xs := by
  unfold bytesOf
  rw [List.filterMap_append, List.filterMap_map]
  exact congrArg (· ++ _) (List.filterMap_some)

theorem bytesOf_symbols : ∀ (chunks : List (List Byte)), bytesOf (symbols chunks) = chunks.flatten
  | [] => rfl
  | chunk :: chunks => by
    rw [symbols_cons, bytesOf_append, List.flatten_cons, ← bytesOf_symbols chunks]
    rfl

theorem cutsOf_append (bytes : List Byte) (xs : List Symbol) :
    ∀ (n : Nat), cutsOf n (bytes.map some ++ xs) = cutsOf (n + bytes.length) xs := by
  induction bytes with
  | nil => exact fun n => rfl
  | cons b bytes ih =>
    intro n
    rw [List.length_cons, Nat.add_comm bytes.length, ← Nat.add_assoc, ← ih]
    rfl

theorem cutsOf_symbols : ∀ (n : Nat) (chunks : List (List Byte)),
    cutsOf n (symbols chunks) = chunkEnds n chunks
  | _, [] => rfl
  | n, chunk :: chunks => by
    rw [symbols_cons, cutsOf_append, cutsOf, cutsOf_symbols]
    rfl

variable {ignored}

/-- What is seen behind some bytes. -/
def Look.through (ignored : Byte → Bool) : Look → List Byte → Option Look
  | q, [] => some q
  | q, b :: bytes => (q.byte ignored b).bind (Look.through ignored · bytes)

variable {q : Look} {bytes : List Byte}

theorem Look.through_append {bytes' : List Byte} :
    q.through ignored (bytes ++ bytes') =
      (q.through ignored bytes).bind (Look.through ignored · bytes') := by
  induction bytes generalizing q with
  | nil => rfl
  | cons b bytes ih =>
    show (q.byte ignored b).bind _ = ((q.byte ignored b).bind _).bind _
    rw [Option.bind_assoc]
    exact congrArg _ (funext fun q => ih)

theorem scan_through {q' : Look} (xs : List Symbol) :
    ∀ {n : Nat}, q.through ignored bytes = some q' →
      scan ignored q n (bytes.map some ++ xs) = scan ignored q' (n + bytes.length) xs := by
  induction bytes generalizing q with
  | nil =>
    intro n h
    obtain rfl := Option.some.inj h
    rfl
  | cons b bytes ih =>
    intro n h
    obtain ⟨q₁, hbyte, hrest⟩ := Option.bind_eq_some_iff.mp h
    rw [List.map_cons, List.cons_append, scan, hbyte]
    show scan ignored q₁ (n + 1) _ = _
    rw [ih hrest, List.length_cons, Nat.add_right_comm]
    rfl

variable {b : Byte}

theorem scan_found {q' : Look} {rest : List Byte} {n : Nat} (xs : List Symbol)
    (h : q.through ignored bytes = some q') (hbyte : q'.byte ignored b = none) :
    scan ignored q n ((bytes ++ b :: rest).map some ++ xs) =
      some (n + bytes.length - 3, q'.carried) := by
  rw [List.map_append, List.append_assoc, scan_through _ h, List.map_cons, List.cons_append, scan,
    hbyte]
  rfl

theorem Look.through_eq_none : ∀ {q : Look}, q.through ignored bytes = none →
    ∃ eaten b rest q', bytes = eaten ++ b :: rest ∧ q.through ignored eaten = some q' ∧
      q'.byte ignored b = none := by
  induction bytes with
  | nil => exact fun {q} h => by cases h
  | cons b bytes ih =>
    intro q h
    cases hbyte : q.byte ignored b with
    | none => exact ⟨[], b, bytes, q, rfl, rfl, hbyte⟩
    | some q₁ =>
      have hrest : q₁.through ignored bytes = none := by
        have : (q.byte ignored b).bind (Look.through ignored · bytes) = none := h
        rwa [hbyte] at this
      obtain ⟨eaten, c, rest, q', rfl, hthrough, hc⟩ := ih hrest
      refine ⟨b :: eaten, c, rest, q', rfl, ?_, hc⟩
      show (q.byte ignored b).bind _ = _
      rw [hbyte]
      exact hthrough

theorem Place.through {cuts : List Nat} :
    ∀ {u : List Byte} {q q' : Look}, Place cuts u q → (∀ p ∈ cuts, p ≤ u.length) →
      q.through ignored bytes = some q' → Place cuts (u ++ bytes) q' := by
  induction bytes with
  | nil =>
    intro u q q' h _ hq
    obtain rfl := Option.some.inj hq
    rwa [List.append_nil]
  | cons b bytes ih =>
    intro u q q' h hcuts hq
    obtain ⟨q₁, hbyte, hrest⟩ := Option.bind_eq_some_iff.mp hq
    have hcuts' : ∀ p ∈ cuts, p ≤ (u ++ [b]).length := by
      intro p hp
      have := hcuts p hp
      rw [List.length_append]
      exact Nat.le_add_right_of_le this
    have := ih (h.byte hcuts hbyte) hcuts' hrest
    rwa [List.append_assoc] at this

/-! ## What is carried -/

/-- What is seen with what is carried. -/
def start (t : TrailingStartCode) : Look := ⟨t ≠ .none, t⟩

theorem Look.cut_start (t : TrailingStartCode) : (start t).cut = start t := by
  cases t <;> rfl

/-- How the bytes behind what is carried are followed. -/
inductive Followed (ignored : Byte → Bool) (t : TrailingStartCode) (bytes : List Byte) :
    TrailingStartCode × List Byte × Option Byte → Prop
  | found {eaten rest : List Byte} {code : Byte} {q : Look} (hbytes : bytes = eaten ++ code :: rest)
      (hthrough : (start t).through ignored eaten = some q) (hcode : q.byte ignored code = none)
      (hcarried : q.carried = true) : Followed ignored t bytes (.none, rest, some code)
  | through {t' : TrailingStartCode} (hthrough : (start t).through ignored bytes = some (start t')) :
      Followed ignored t bytes (t', [], none)
  | lost {eaten rest : List Byte} {b : Byte} {q : Look} (hbytes : bytes = eaten ++ b :: rest)
      (hthrough : (start t).through ignored eaten = some q)
      (hfresh : q.byte ignored b = (start .none).byte ignored b) :
      Followed ignored t bytes (.none, b :: rest, none)

theorem Followed.cons {t t' : TrailingStartCode} {r : TrailingStartCode × List Byte × Option Byte}
    (hbyte : (start t).byte ignored b = some (start t')) (h : Followed ignored t' bytes r) :
    Followed ignored t (b :: bytes) r := by
  have hcons : ∀ {eaten q}, (start t').through ignored eaten = some q →
      (start t).through ignored (b :: eaten) = some q := by
    intro eaten q hq
    show ((start t).byte ignored b).bind _ = _
    rw [hbyte]
    exact hq
  cases h with
  | found hbytes hthrough hcode hcarried =>
    exact .found (congrArg (b :: ·) hbytes) (hcons hthrough) hcode hcarried
  | through hthrough => exact .through (hcons hthrough)
  | lost hbytes hthrough hfresh => exact .lost (congrArg (b :: ·) hbytes) (hcons hthrough) hfresh

theorem Followed.head {t : TrailingStartCode} {rest : List Byte}
    (hfresh : (start t).byte ignored b = (start .none).byte ignored b) :
    Followed ignored t (b :: rest) (.none, b :: rest, none) :=
  .lost (List.nil_append (b :: rest)).symm rfl hfresh

theorem start_none_byte (hb : b ≠ 0) : (start .none).byte ignored b = some ⟨false, .none⟩ := by
  have hseen : (if b = 0 then TrailingStartCode.zero else .none) = .none := if_neg hb
  exact congrArg (fun seen => some (Look.mk false seen)) hseen

theorem followTrailing_spec : ∀ (t : TrailingStartCode) (bytes : List Byte),
    Followed ignored t bytes (followTrailing ignored t bytes)
  | t, [] => by
    cases t with
    | none => exact .through rfl
    | zero => exact .through rfl
    | zeroZero => exact .through rfl
    | zeroZeroOne => exact .through rfl
  | .none, _ :: _ => .head rfl
  | .zeroZeroOne, code :: rest => by
    have hbyte : (start .zeroZeroOne).byte ignored code =
        if ignored code then (start .none).byte ignored code else none := rfl
    unfold followTrailing
    split
    next hcode => exact .head (hbyte.trans (if_pos hcode))
    next hcode =>
      exact .found (List.nil_append (code :: rest)).symm rfl (hbyte.trans (if_neg hcode)) rfl
  | .zeroZero, b :: rest => by
    have hbyte : (start .zeroZero).byte ignored b = if b = 1 then some (start .zeroZeroOne)
        else if b = 0 then some (start .zeroZero) else some ⟨false, .none⟩ := rfl
    unfold followTrailing
    split
    next hb => exact .cons (hbyte.trans (if_pos hb)) (followTrailing_spec .zeroZeroOne rest)
    next hb =>
      rw [if_neg hb] at hbyte
      split
      next hzero => exact .cons (hbyte.trans (if_pos hzero)) (followTrailing_spec .zeroZero rest)
      next hzero => exact .head ((hbyte.trans (if_neg hzero)).trans (start_none_byte hzero).symm)
  | .zero, b :: rest => by
    have hbyte : (start .zero).byte ignored b =
        if b = 0 then some (start .zero) else some ⟨false, .none⟩ := rfl
    unfold followTrailing
    split
    next hzero => exact .cons (hbyte.trans (if_pos hzero)) (followTrailing_spec .zero rest)
    next hzero => exact .head ((hbyte.trans (if_neg hzero)).trans (start_none_byte hzero).symm)

/-- Of the last three bytes the first is never looked at. -/
theorem trailingBytes_concat (u : List Byte) (b : Byte) : trailingBytes (u ++ [b]) =
    if b = 0 then if u.getLast? = some 0 then .zeroZero else .zero else .none := by
  have hlength : (u ++ [b]).length = u.length + 1 := by simp
  have hlast : (if 1 ≤ (u ++ [b]).length then byteAt (u ++ [b]) ((u ++ [b]).length - 1)
      else 0xff) = b := by
    rw [hlength, if_pos (Nat.le_add_left 1 _), Nat.add_sub_cancel]
    exact byteAt_append_right (a := u) 0
  have hbefore : (if 2 ≤ (u ++ [b]).length then byteAt (u ++ [b]) ((u ++ [b]).length - 2)
      else 0xff) = 0 ↔ u.getLast? = some 0 := by
    rw [hlength]
    rcases Nat.eq_zero_or_pos u.length with hempty | hpos
    · rw [if_neg (by omega), List.length_eq_zero_iff.mp hempty]
      exact iff_of_false (by decide) (by simp)
    · rw [if_pos (by omega), show u.length + 1 - 2 = u.length - 1 by omega,
        byteAt_append_left (by omega), List.getLast?_eq_getElem?,
        List.getElem?_eq_getElem (by omega)]
      unfold byteAt
      rw [List.getD_eq_getElem _ _ (by omega), Option.some_inj]
  have hless : b < 1 ↔ b = 0 :=
    ⟨fun h => BitVec.eq_of_toNat_eq (Nat.lt_one_iff.mp h), fun h => h ▸ by decide⟩
  unfold trailingBytes
  simp only [hlast, hbefore, hless]
  split
  next hb =>
    subst hb
    rw [if_neg fun h => one_ne_zero_byte h.2.2.symm]
    exact if_congr (and_iff_left rfl) rfl rfl
  next => rfl

theorem start_trailingBytes (hne : bytes ≠ []) (h : Place [] bytes q) :
    start (trailingBytes bytes) = q.cut := by
  cases h with
  | clear hzero hone =>
    rw [← List.dropLast_append_getLast hne, List.getLast?_concat] at hzero
    rw [← List.dropLast_append_getLast hne, trailingBytes_concat,
      if_neg fun h => hzero (congrArg some h)]
    rfl
  | @zeros v m hv hm =>
    obtain ⟨m, rfl⟩ := Nat.exists_eq_add_of_le' hm
    have hnone : ¬ ∃ p ∈ ([] : List Nat), v.length + 2 ≤ p ∧ p ≤ v.length + (m + 1) := by simp
    unfold zerosLook
    rw [List.replicate_succ', ← List.append_assoc, trailingBytes_concat, if_pos rfl,
      if_neg List.not_mem_nil, if_neg hnone]
    cases m with
    | zero =>
      rw [List.replicate_zero, List.append_nil, if_neg hv, if_pos (Nat.zero_add 1)]
      rfl
    | succ m =>
      rw [List.replicate_succ', ← List.append_assoc, List.getLast?_concat, if_pos rfl,
        if_neg (by omega)]
      rfl
  | @one v m hv hm =>
    have hnone : ¬ ∃ p ∈ ([] : List Nat), v.length + 2 ≤ p ∧ p ≤ v.length + m := by simp
    unfold oneLook
    rw [trailingBytes_concat, if_neg one_ne_zero_byte, if_neg List.not_mem_nil, if_neg hnone,
      if_neg List.not_mem_nil]
    rfl

/-! ## The search inside a chunk -/

theorem place_through (h : (start .none).through ignored bytes = some q) : Place [] bytes q :=
  (place_start []).through (by simp) h

theorem Place.three_le {cuts : List Nat} {u : List Byte} (h : Place cuts u q)
    (hbyte : q.byte ignored b = none) : 3 ≤ u.length := by
  obtain ⟨v, m, rfl, -, hm, -⟩ := h.byte_eq_none hbyte
  simp only [List.length_append, List.length_replicate, List.length_singleton]
  omega

theorem scan_one (bytes : List Byte) :
    (∀ {k carried}, scan ignored (start .none) 0 (bytes.map some ++ []) = some (k, carried) →
      IsCode ignored bytes k) ∧
    ∀ {k}, IsCode ignored bytes k → ∃ k' carried,
      scan ignored (start .none) 0 (bytes.map some ++ []) = some (k', carried) ∧ k' ≤ k := by
  have hbytes : [] ++ bytesOf (bytes.map some ++ []) = bytes := by
    rw [bytesOf_append]
    exact List.append_nil bytes
  have hcuts : [] ++ cutsOf 0 (bytes.map some ++ []) = [] := cutsOf_append bytes [] 0
  constructor
  · intro k carried h
    have := (scan_sound (place_start []) (by simp) h).1
    rwa [hbytes] at this
  · intro k hcode
    refine scan_complete (place_start []) (by simp) (Nat.zero_le _) (by rwa [hbytes]) ?_
    rw [List.length_nil, hcuts]
    exact ⟨List.not_mem_nil, fun h => absurd h List.not_mem_nil⟩

theorem findNextStartCode_of_byte {eaten rest : List Byte} {code : Byte}
    (h : (start .none).through ignored eaten = some q) (hcode : q.byte ignored code = none) :
    findNextStartCode ignored (eaten ++ code :: rest) = some (eaten.length - 3) := by
  have hscan : scan ignored (start .none) 0 ((eaten ++ code :: rest).map some ++ []) =
      some (0 + eaten.length - 3, q.carried) := scan_found [] h hcode
  have hspec := findNextStartCode_spec ignored (eaten ++ code :: rest)
  obtain ⟨hsound, hcomplete⟩ : (∀ {k carried}, _ → IsCode ignored (eaten ++ code :: rest) k) ∧ _ :=
    scan_one (eaten ++ code :: rest)
  rw [Nat.zero_add] at hscan
  cases hfind : findNextStartCode ignored (eaten ++ code :: rest) with
  | none =>
    rw [hfind] at hspec
    exact absurd (hsound hscan) (hspec _)
  | some k =>
    rw [hfind] at hspec
    obtain ⟨k', carried, hscan', hle⟩ := hcomplete hspec.1
    rw [hscan] at hscan'
    obtain ⟨rfl, -⟩ := Prod.mk.inj (Option.some.inj hscan')
    rcases Nat.lt_or_eq_of_le hle with hlt | heq
    · exact absurd (hsound hscan) (hspec.2 _ hlt)
    · exact congrArg some heq.symm

theorem findNextStartCode_of_through (h : (start .none).through ignored bytes = some q) :
    findNextStartCode ignored bytes = none := by
  have hspec := findNextStartCode_spec ignored bytes
  cases hfind : findNextStartCode ignored bytes with
  | none => rfl
  | some k =>
    rw [hfind] at hspec
    obtain ⟨k', carried, hscan, -⟩ := (scan_one bytes).2 hspec.1
    rw [scan_through [] h] at hscan
    cases hscan

/-! ## One chunk -/

/-- Locked to a code, with this much of it in the buffer. -/
structure Locked (s t : PesAudio) (taken : List Byte) : Prop where
  seekingPesHeader : t.seekingPesHeader = false
  gotPartialPesHeader : t.gotPartialPesHeader = true
  gotPartialPesHeaderBytes : t.gotPartialPesHeaderBytes = taken.length
  bytes : t.accumulated = s.accumulated ++ taken

/-- Room for a code that is put together, where `MaximumCodedFrameSize` is the limit. -/
def Room (s : PesAudio) : Prop := s.accumulated.length + 4 ≤ limit

/-- What the search of a chunk comes to. -/
inductive Searched (ignored : Byte → Bool) (s : PesAudio) (bytes : List Byte) :
    Pass PesAudio Byte CollatorStatus → Prop
  | on {t : PesAudio} {q : Look}
      (hthrough : (start s.trailingStartCode).through ignored bytes = some q)
      (htrailing : start t.trailingStartCode = q.cut)
      (hseek : t.seekingPesHeader = s.seekingPesHeader) (haccumulated : t.accumulated = s.accumulated) :
      Searched ignored s bytes (.again t [])
  | inside {t : PesAudio} {eaten rest : List Byte} {code : Byte} {q : Look}
      (hbytes : bytes = eaten ++ code :: rest)
      (hthrough : (start s.trailingStartCode).through ignored eaten = some q)
      (hcode : q.byte ignored code = none) (hcarried : q.carried = false)
      (hlength : 3 ≤ eaten.length) (hlocked : Locked s t []) :
      Searched ignored s bytes (.again t (bytes.drop (eaten.length - 3)))
  | carried {t : PesAudio} {eaten rest : List Byte} {code : Byte} {q : Look}
      (hbytes : bytes = eaten ++ code :: rest)
      (hthrough : (start s.trailingStartCode).through ignored eaten = some q)
      (hcode : q.byte ignored code = none) (hcarried : q.carried = true)
      (hroom : Room limit s) (hlocked : Locked s t [0x00, 0x00, 0x01, code]) :
      Searched ignored s bytes (.again t rest)
  | full {eaten rest : List Byte} {code : Byte} {q : Look} {e : CollatorStatus}
      (hbytes : bytes = eaten ++ code :: rest)
      (hthrough : (start s.trailingStartCode).through ignored eaten = some q)
      (hcode : q.byte ignored code = none) (hcarried : q.carried = true) (hroom : ¬ Room limit s) :
      Searched ignored s bytes (.stop e)

section

variable {s t : PesAudio} {eaten rest : List Byte} {b : Byte} {q : Look}

theorem Look.through_lost {q' : Look} (hthrough : q.through ignored eaten = some q')
    (hfresh : q'.byte ignored b = (start .none).byte ignored b) (bytes : List Byte) :
    q.through ignored (eaten ++ b :: bytes) = (start .none).through ignored (b :: bytes) := by
  rw [Look.through_append, hthrough]
  show (q'.byte ignored b).bind _ = ((start .none).byte ignored b).bind _
  rw [hfresh]

theorem Searched.of_none (hthrough : (start s.trailingStartCode).through ignored eaten = some q)
    (hfresh : q.byte ignored b = (start .none).byte ignored b)
    (hfind : findNextStartCode ignored (b :: rest) = none)
    (htrailing : t.trailingStartCode = trailingBytes (b :: rest))
    (hseek : t.seekingPesHeader = s.seekingPesHeader) (haccumulated : t.accumulated = s.accumulated) :
    Searched limit ignored s (eaten ++ b :: rest) (.again t []) := by
  cases h : (start .none).through ignored (b :: rest) with
  | some q' =>
    refine .on ((Look.through_lost hthrough hfresh rest).trans h) ?_ hseek haccumulated
    rw [htrailing]
    exact start_trailingBytes (List.cons_ne_nil _ _) (place_through h)
  | none =>
    obtain ⟨eaten', code, rest', q', hsplit, hq', hcode⟩ := Look.through_eq_none h
    rw [hsplit, findNextStartCode_of_byte hq' hcode] at hfind
    cases hfind

theorem Searched.of_some {codeOffset : Nat}
    (hthrough : (start s.trailingStartCode).through ignored eaten = some q)
    (hfresh : q.byte ignored b = (start .none).byte ignored b)
    (hfind : findNextStartCode ignored (b :: rest) = some codeOffset) (hlocked : Locked s t []) :
    Searched limit ignored s (eaten ++ b :: rest) (.again t ((b :: rest).drop codeOffset)) := by
  cases h : (start .none).through ignored (b :: rest) with
  | some q' =>
    rw [findNextStartCode_of_through h] at hfind
    cases hfind
  | none =>
    obtain ⟨eaten', code, rest', q', hsplit, hq', hcode⟩ := Look.through_eq_none h
    have hlength := (place_through hq').three_le hcode
    obtain rfl : eaten'.length - 3 = codeOffset := by
      rw [hsplit, findNextStartCode_of_byte hq' hcode] at hfind
      exact Option.some.inj hfind
    have hfree : q'.carried = false := by
      obtain ⟨v, m, -, -, -, -, -, hcarried, -⟩ := (place_through hq').byte_eq_none hcode
      refine Bool.eq_false_iff.mpr fun h => ?_
      obtain ⟨p, hp, -⟩ := hcarried.mp h
      cases hp
    cases eaten' with
    | nil => cases hlength
    | cons b' eaten' =>
      obtain ⟨rfl, hrest⟩ := List.cons.inj hsplit
      have hdrop : (b :: rest).drop ((b :: eaten').length - 3) =
          (eaten ++ b :: rest).drop ((eaten ++ b :: eaten').length - 3) := by
        rw [List.length_append, Nat.add_sub_assoc hlength, ← List.drop_drop, List.drop_left]
      have hbytes : eaten ++ b :: rest = eaten ++ b :: eaten' ++ code :: rest' := by
        rw [hrest, List.append_assoc]
        rfl
      have hlong : 3 ≤ (eaten ++ b :: eaten').length := by
        rw [List.length_append]
        exact Nat.le_add_left_of_le hlength
      rw [hdrop]
      exact .inside hbytes ((Look.through_lost hthrough hfresh eaten').trans hq') hcode hfree hlong
        hlocked

end

theorem searchForPesHeader_spec (s : PesAudio) (bytes : List Byte) :
    Searched limit ignored s bytes (searchForPesHeader ignored limit s bytes) := by
  unfold searchForPesHeader
  have h : Followed ignored s.trailingStartCode bytes _ := followTrailing_spec _ _
  generalize followTrailing ignored s.trailingStartCode bytes = r at h
  cases h with
  | through hthrough => exact .on hthrough (Look.cut_start _).symm rfl rfl
  | @found eaten rest code q hbytes hthrough hcode hcarried =>
    by_cases hroom : Room limit s
    · dsimp only
      rw [PesAudio.accumulateData_of_le]
      · exact .carried hbytes hthrough hcode hcarried hroom ⟨rfl, rfl, rfl, rfl⟩
      · exact hroom
    · dsimp only
      rw [PesAudio.accumulateData_of_lt]
      · exact .full hbytes hthrough hcode hcarried hroom
      · exact Nat.lt_of_not_le hroom
  | @lost eaten rest b q hbytes hthrough hfresh =>
    subst hbytes
    dsimp only
    split
    next codeOffset hfind =>
      exact .of_some limit hthrough hfresh hfind ⟨rfl, rfl, rfl, (List.append_nil _).symm⟩
    next hfind => exact .of_none limit hthrough hfresh hfind rfl rfl rfl

/-! ## Chunk after chunk -/

/-- What the search of all chunks comes to, by where a code is found in their bytes. -/
inductive Sought (s : PesAudio) (w : List Byte) :
    Option (Nat × Bool) → Except CollatorStatus (PesAudio × List Byte × List (List Byte)) →
    Prop
  | on {t : PesAudio} (hseek : t.seekingPesHeader = true)
      (hbytes : t.accumulated = s.accumulated) : Sought s w none (.ok (t, [], []))
  | locked {t : PesAudio} {taken rest : List Byte} {later : List (List Byte)} {k : Nat}
      {carried : Bool} (hlocked : Locked s t taken)
      (hrest : taken ++ rest ++ later.flatten = w.drop k) (hroom : carried = true → Room limit s) :
      Sought s w (some (k, carried)) (.ok (t, rest, later))
  | full {e : CollatorStatus} {k : Nat} (hroom : ¬ Room limit s) :
      Sought s w (some (k, true)) (.error e)

theorem Sought.of_accumulated {s t : PesAudio} {w : List Byte} {found : Option (Nat × Bool)}
    {r : Except CollatorStatus (PesAudio × List Byte × List (List Byte))}
    (haccumulated : t.accumulated = s.accumulated) (h : Sought limit t w found r) :
    Sought limit s w found r := by
  cases h with
  | on hseek hbytes => exact .on hseek (haccumulated ▸ hbytes)
  | locked hlocked hrest hroom =>
    obtain ⟨hseeking, hgot, hbytes, htaken⟩ := hlocked
    exact .locked ⟨hseeking, hgot, hbytes, haccumulated ▸ htaken⟩ hrest fun h => by
      have := hroom h
      unfold Room at this ⊢
      rwa [← haccumulated]
  | full hroom =>
    refine .full fun h => hroom ?_
    unfold Room at h ⊢
    rwa [haccumulated]

theorem drop_of_isCode {w rest : List Byte} {k : Nat} {code : Byte} (h : IsCode ignored w k)
    (hrest : w.drop (k + 3) = code :: rest) :
    [0x00, 0x00, 0x01, code] ++ rest = w.drop k := by
  obtain ⟨hlt, h0, h1, h2, -⟩ := h
  have hbyte : ∀ i, i < w.length → w.drop i = byteAt w i :: w.drop (i + 1) := by
    intro i hi
    unfold byteAt
    rw [List.getD_eq_getElem _ _ hi]
    exact List.drop_eq_getElem_cons hi
  rw [hbyte k (by omega), hbyte (k + 1) (by omega), hbyte (k + 2) (by omega), hrest, h0, h1, h2]
  rfl

theorem seek_spec : ∀ {chunks : List (List Byte)} {s : PesAudio} {u : List Byte}
    {cuts : List Nat}, s.seekingPesHeader = true → Place cuts u (start s.trailingStartCode) →
      (∀ p ∈ cuts, p ≤ u.length) →
      Sought limit s (u ++ chunks.flatten)
        (scan ignored (start s.trailingStartCode) u.length (symbols chunks))
        (seek ignored limit s chunks)
  | [], s, u, cuts, hseek, _, _ => .on hseek rfl
  | [] :: chunks, s, u, cuts, hseek, hplace, hcuts => by
    rw [symbols_cons]
    show Sought limit s (u ++ chunks.flatten)
      (scan ignored (start s.trailingStartCode).cut u.length (symbols chunks)) _
    rw [Look.cut_start]
    exact seek_spec hseek hplace hcuts
  | (b :: bytes) :: chunks, s, u, cuts, hseek, hplace, hcuts => by
    unfold seek
    have h : Searched limit ignored s (b :: bytes) _ := searchForPesHeader_spec limit s (b :: bytes)
    generalize searchForPesHeader ignored limit s (b :: bytes) = r at h
    rw [symbols_cons]
    cases h with
    | @on t q hthrough htrailing hseek' haccumulated =>
      have hplace' : Place (cuts ++ [(u ++ b :: bytes).length]) (u ++ b :: bytes)
          (start t.trailingStartCode) := by
        rw [htrailing]
        exact (hplace.through hcuts hthrough).cut
      have hcuts' : ∀ p ∈ cuts ++ [(u ++ b :: bytes).length], p ≤ (u ++ b :: bytes).length := by
        intro p hp
        rcases List.mem_append.mp hp with hp | hp
        · rw [List.length_append]
          exact Nat.le_add_right_of_le (hcuts p hp)
        · exact Nat.le_of_eq (List.mem_singleton.mp hp)
      have hon : Sought limit t (u ++ b :: bytes ++ chunks.flatten) _ _ :=
        seek_spec (hseek'.trans hseek) hplace' hcuts'
      rw [scan_through _ hthrough, scan, ← htrailing, List.flatten_cons, ← List.append_assoc]
      rw [List.length_append] at hon
      dsimp only
      rw [if_pos (hseek'.trans hseek)]
      exact .of_accumulated limit haccumulated hon
    | @inside t eaten rest code q hbytes hthrough hcode hcarried hlength hlocked =>
      have hdrop : (u ++ ((b :: bytes) :: chunks).flatten).drop (u.length + eaten.length - 3) =
          (b :: bytes).drop (eaten.length - 3) ++ chunks.flatten := by
        have hle : eaten.length - 3 ≤ (b :: bytes).length := by
          rw [hbytes, List.length_append]
          omega
        rw [Nat.add_sub_assoc hlength, ← List.drop_drop, List.drop_left, List.flatten_cons,
          List.drop_append_of_le_length hle]
      have hfound : scan ignored _ u.length ((eaten ++ code :: rest).map some ++ _) = _ :=
        scan_found (none :: symbols chunks) hthrough hcode
      rw [hbytes, hfound, hcarried, ← hbytes]
      dsimp only
      rw [if_neg (by rw [hlocked.seekingPesHeader]; exact Bool.false_ne_true)]
      exact .locked hlocked hdrop.symm fun h => by cases h
    | @carried t eaten rest code q hbytes hthrough hcode hcarried hroom hlocked =>
      have hfound : scan ignored _ u.length ((eaten ++ code :: rest).map some ++ _) = _ :=
        scan_found (none :: symbols chunks) hthrough hcode
      have hw : u ++ ((b :: bytes) :: chunks).flatten =
          u ++ eaten ++ code :: (rest ++ chunks.flatten) := by
        rw [List.flatten_cons, hbytes]
        simp
      have hlength : 3 ≤ u.length + eaten.length := by
        rw [← List.length_append]
        exact (hplace.through hcuts hthrough).three_le hcode
      have hcodeAt : IsCode ignored (u ++ ((b :: bytes) :: chunks).flatten)
          (u.length + eaten.length - 3) := by
        rw [← bytesOf_symbols, symbols_cons, hbytes]
        exact (scan_sound hplace hcuts hfound).1
      have hdrop : (u ++ ((b :: bytes) :: chunks).flatten).drop (u.length + eaten.length - 3 + 3) =
          code :: (rest ++ chunks.flatten) := by
        rw [hw, Nat.sub_add_cancel hlength, ← List.length_append, List.drop_left]
      rw [hbytes, hfound, hcarried, ← hbytes]
      dsimp only
      rw [if_neg (by rw [hlocked.seekingPesHeader]; exact Bool.false_ne_true)]
      refine .locked hlocked ?_ fun _ => hroom
      rw [← drop_of_isCode hcodeAt hdrop, List.append_assoc]
    | @full eaten rest code q e hbytes hthrough hcode hcarried hroom =>
      have hfound : scan ignored _ u.length ((eaten ++ code :: rest).map some ++ _) = _ :=
        scan_found (none :: symbols chunks) hthrough hcode
      rw [hbytes, hfound, hcarried]
      exact .full hroom

/-! ## The first code -/

section

variable (ignored : Byte → Bool) (s : PesAudio) (chunks : List (List Byte))

/-- What the search is for: it locks to the first code, and keeps all from there on; and
without a code it goes on. -/
def SeekExact : Prop :=
  (∀ k, IsFirst ignored chunks.flatten k → ∃ t taken rest later,
      seek ignored limit s chunks = .ok (t, rest, later) ∧ Locked s t taken ∧
        taken ++ rest ++ later.flatten = chunks.flatten.drop k) ∧
    ((∀ k, ¬ IsCode ignored chunks.flatten k) → ∃ t,
      seek ignored limit s chunks = .ok (t, [], []) ∧ t.seekingPesHeader = true ∧
        t.accumulated = s.accumulated)

/-- It does where the first code is not lost between chunks, and there is room for one that
is put together. -/
theorem seek_exact_iff (hseek : s.seekingPesHeader = true)
    (htrailing : s.trailingStartCode = .none) : SeekExact limit ignored s chunks ↔
      ∀ k, IsFirst ignored chunks.flatten k →
        Caught (chunkEnds 0 chunks) chunks.flatten k ∧
          (Spanned (chunkEnds 0 chunks) chunks.flatten k → Room limit s) := by
  have hplace : Place [] [] (start s.trailingStartCode) := by
    rw [htrailing]
    exact place_start []
  have hspec : Sought limit s chunks.flatten (scan ignored (start s.trailingStartCode) 0
      (symbols chunks)) (seek ignored limit s chunks) := seek_spec limit hseek hplace (by simp)
  have hsound : ∀ {k carried}, scan ignored (start s.trailingStartCode) 0 (symbols chunks) =
      some (k, carried) → IsCode ignored chunks.flatten k ∧
        Caught (chunkEnds 0 chunks) chunks.flatten k ∧
          (carried = true ↔ Spanned (chunkEnds 0 chunks) chunks.flatten k) := by
    intro k carried h
    rw [← bytesOf_symbols, ← cutsOf_symbols]
    exact scan_sound hplace (by simp) h
  constructor
  · rintro ⟨hfirst, -⟩ k hk
    obtain ⟨t, taken, rest, later, heq, hlocked, hrest⟩ := hfirst k hk
    rw [heq] at hspec
    generalize hscan : scan ignored (start s.trailingStartCode) 0 (symbols chunks) = found at hspec
    cases hspec with
    | on hseek' hbytes =>
      rw [hlocked.seekingPesHeader] at hseek'
      cases hseek'
    | @locked _ taken' _ _ k' carried hlocked' hrest' hroom =>
      obtain rfl : taken = taken' :=
        List.append_cancel_left (hlocked.bytes.symm.trans hlocked'.bytes)
      obtain ⟨hcode, hcaught, hspanned⟩ := hsound hscan
      have hlength := congrArg List.length (hrest.symm.trans hrest')
      rw [List.length_drop, List.length_drop] at hlength
      obtain rfl : k = k' := by
        have := hk.1.1
        have := hcode.1
        omega
      exact ⟨hcaught, fun h => hroom (hspanned.mpr h)⟩
  · intro h
    constructor
    · intro k hk
      obtain ⟨hcaught, hroom⟩ := h k hk
      have hcomplete : ∃ k' carried, scan ignored (start s.trailingStartCode) 0 (symbols chunks) =
          some (k', carried) ∧ k' ≤ k := by
        refine scan_complete hplace (by simp) (Nat.zero_le _) ?_ ?_
        · rw [bytesOf_symbols]
          exact hk.1
        · rw [bytesOf_symbols, List.length_nil, cutsOf_symbols]
          exact hcaught
      obtain ⟨k', carried, hscan, hle⟩ := hcomplete
      obtain ⟨hcode, -, hspanned⟩ := hsound hscan
      obtain rfl : k' = k := by
        rcases Nat.lt_or_eq_of_le hle with hlt | rfl
        · exact absurd hcode (hk.2 k' hlt)
        · rfl
      rw [hscan] at hspec
      generalize hsought : seek ignored limit s chunks = r at hspec
      cases hspec with
      | @locked t taken rest later _ _ hlocked hrest _ =>
        exact ⟨t, taken, rest, later, rfl, hlocked, hrest⟩
      | full hfull => exact absurd (hroom (hspanned.mp rfl)) hfull
    · intro hnone
      generalize hscan : scan ignored (start s.trailingStartCode) 0 (symbols chunks) = found at hspec
      generalize hsought : seek ignored limit s chunks = r at hspec
      cases hspec with
      | @on t hseek' hbytes => exact ⟨t, rfl, hseek', hbytes⟩
      | locked => exact absurd (hsound hscan).1 (hnone _)
      | full => exact absurd (hsound hscan).1 (hnone _)

end

/-- As it has been registered. -/
def aSeekingCollator : PesAudio where
  accumulated := []
  seekingPesHeader := true
  gotPartialPesHeader := false
  gotPartialPesHeaderBytes := 0
  pes := ⟨⟨false, 0, false, 0⟩, ⟨false, 0, false, 0⟩, false, 0, 0, ⟨false, 0, false, 0⟩, 0⟩
  trailingStartCode := .none

theorem isFirst_zero {code : Byte} (hcode : ignored code = false) (rest : List Byte) :
    IsFirst ignored (0x00 :: 0x00 :: 0x01 :: code :: rest) 0 := by
  refine ⟨⟨?_, rfl, rfl, rfl, hcode⟩, fun j hj => absurd hj (Nat.not_lt_zero j)⟩
  simp only [List.length_cons]
  omega

theorem isFirst_unique {w : List Byte} {j k : Nat} (hj : IsFirst ignored w j)
    (hk : IsFirst ignored w k) : j = k :=
  Nat.le_antisymm (Nat.le_of_not_lt fun h => hj.2 k h hk.1)
    (Nat.le_of_not_lt fun h => hk.2 j h hj.1)

/-- A chunk that ends between its zeros and the `01` is made up for. -/
theorem seek_exact_of_zeros : SeekExact 0x1000 mpegIgnored aSeekingCollator
    [[0x00, 0x00], [0x01, 0xc0]] := by
  refine (seek_exact_iff _ _ _ _ rfl rfl).mpr fun k hk => ?_
  obtain rfl : 0 = k := isFirst_unique (isFirst_zero (by decide) []) hk
  exact ⟨by decide +kernel, fun _ => (by decide : 0 + 4 ≤ 0x1000)⟩

/-- One that ends between the zeros loses the code. -/
theorem seek_loses_code : ¬ SeekExact 0x1000 mpegIgnored aSeekingCollator
    [[0x00], [0x00, 0x01, 0xc0]] := by
  rintro ⟨hfirst, -⟩
  obtain ⟨t, taken, rest, later, hseek, hlocked, -⟩ := hfirst 0 (isFirst_zero (by decide) [])
  have hon : (seek mpegIgnored 0x1000 aSeekingCollator
      [[0x00], [0x00, 0x01, 0xc0]]).map (fun r => r.1.seekingPesHeader) = .ok true := rfl
  rw [hseek] at hon
  have hstill : t.seekingPesHeader = true := Except.ok.inj hon
  rw [hlocked.seekingPesHeader] at hstill
  cases hstill

end Duckbox.Collator.Audio
