import Duckbox.Lib.Loop
import Duckbox.Lib.Replacement

/-!
# The text of a subtitle

`replace_all` cuts a text to 511 bytes, and for as long as it finds what it is to replace
it writes the text with the first occurrence replaced into an array of 512 bytes and
copies that back. `subtitle_ParseSRT`, `subtitle_ParseSSA` and `subtitle_ParseASS` call
it for one pattern after the other. What looks for an occurrence looks again from the
front, which is harmless for their patterns: none of them can be formed by a replacement.

An umlaut comes to two bytes, and nothing asks whether there is room for them.

> Every call writes inside its arrays, ends and returns the text with each occurrence
> replaced exactly where nothing but carriage returns is cut off and the text with its
> umlauts spelt out fits the array (`parse_exact_iff`).

A text is what is in front of its NUL. Memory does not run out.

Not modelled: printing.
-/

namespace Duckbox.Libeplayer3.SubtitleText

open Lib

abbrev Byte := BitVec 8

/-- What a text pointer points at. -/
abbrev Text := List Byte

/-- What a call looks for, and what it puts in its place. -/
structure Replacement where
  search : Text
  replace : Text
deriving DecidableEq

/-- The size of `tempString` and of `newString`. -/
abbrev stringSize : Nat := 512

/-- The loop of `replace_all` with what is in `tempString` and in `newString`; `none`
where it writes behind an array, or is given too little fuel. -/
def replaceLoop (r : Replacement) : Nat → Text → Text → Option (Text × Text)
  | 0, _, _ => none
  | fuel + 1, tempString, newString =>
    match firstAt r.search tempString with
    | none => some (tempString, newString)
    | some len =>
      let newString := splice r.search r.replace tempString len
      if newString.length + 1 ≤ stringSize then replaceLoop r fuel newString newString else none

/-- `replace_all`. -/
def replaceAll (fuel : Nat) (string : Text) (r : Replacement) : Option Text :=
  (replaceLoop r fuel (string.take 511) []).map fun (tempString, newString) =>
    if newString ≠ [] then newString else tempString

/-- Behind the ninth comma, or at the end. -/
def behindCommas : Nat → Text → Text
  | 0, text => text
  | _ + 1, [] => []
  | i + 1, b :: text => if b = 44 then behindCommas i text else behindCommas (i + 1) text

/-- The formats that have a function of their own. -/
inductive Format where
  | srt
  | ssa
  | ass
deriving DecidableEq

/-- `"\x0d"`. -/
def carriageReturn : Replacement := ⟨[13], []⟩

/-- What becomes of newlines: `"\n\n"`, `"\n"` and `"\\N"`. -/
def newlines : List Replacement := [⟨[10, 10], [92, 78]⟩, ⟨[10], []⟩, ⟨[92, 78], [10]⟩]

/-- The umlauts and how they are spelt. -/
def umlauts : List Replacement :=
  [⟨[0xf6], [111, 101]⟩, ⟨[0xe4], [97, 101]⟩, ⟨[0xfc], [117, 101]⟩, ⟨[0xd6], [79, 101]⟩,
    ⟨[0xc4], [65, 101]⟩, ⟨[0xdc], [85, 101]⟩, ⟨[0xdf], [115, 115]⟩]

/-- The calls of `replace_all`, in turn: `"\\N"`, `"{\\i1}"` and `"{\\i0}"` for ASS. -/
def calls : Format → List Replacement
  | .srt => carriageReturn :: newlines ++ umlauts
  | .ssa => carriageReturn :: newlines ++ umlauts
  | .ass =>
    [⟨[92, 78], [10]⟩, ⟨[123, 92, 105, 49, 125], [60, 105, 62]⟩,
      ⟨[123, 92, 105, 48, 125], [60, 47, 105, 62]⟩]

/-- What the first call is given. -/
def lead : Format → Text → Text
  | .srt, line => line
  | .ssa, line => line
  | .ass, line => behindCommas 9 line

/-- `subtitle_ParseSRT`, `subtitle_ParseSSA` and `subtitle_ParseASS`. -/
def parse (fuel : Nat) (format : Format) (line : Text) : Option Text :=
  run (replaceAll fuel) (lead format line) (calls format)

/-- The text with each occurrence replaced. -/
def Replacement.apply (text : Text) (r : Replacement) : Text :=
  replaced r.search r.replace text

/-- The text with all that is to be replaced replaced, one pattern after the other. -/
def converted (format : Format) (line : Text) : Text :=
  (calls format).foldl Replacement.apply (lead format line)

/-- The function returns the text with all replaced, and so does every call it makes with
what it is given. -/
def Exact (format : Format) (line : Text) : Prop :=
  ∃ fuel, parse fuel format line = some (converted format line) ∧
    ∀ pre, pre <+: calls format →
      run (replaceAll fuel) (lead format line) pre =
        some (pre.foldl Replacement.apply (lead format line))

/-! ## One call -/

variable {r : Replacement} {text out : Text} {fuel : Nat}

/-- What a call is asked to keep, and to have room for. -/
def Replacement.Ok (text : Text) (r : Replacement) : Prop :=
  r.apply (text.take 511) = r.apply text ∧ (r.apply text).length ≤ 511

theorem replaceLoop_sound (hfresh : Fresh r.search r.replace) :
    ∀ {fuel : Nat} {temp new temp' new' : Text}, temp.length ≤ 511 → (new = [] ∨ new = temp) →
      replaceLoop r fuel temp new = some (temp', new') →
      temp' = r.apply temp ∧ temp'.length ≤ 511 ∧ (new' = [] ∨ new' = temp')
  | 0, _, _, _, _, _, _, h => by cases h
  | fuel + 1, temp, new, temp', new', htemp, hnew, h => by
    unfold replaceLoop at h
    split at h
    next hnone =>
      obtain ⟨rfl, rfl⟩ := Prod.mk.inj (Option.some.inj h)
      exact ⟨(replaced_of_firstAt_none hnone).symm, htemp, hnew⟩
    next len hsome =>
      dsimp only at h
      split at h
      next hfits =>
        have hrest := replaceLoop_sound hfresh (Nat.le_of_succ_le_succ hfits) (Or.inr rfl) h
        rw [Replacement.apply, replaced_splice hfresh hsome] at hrest
        exact hrest
      next => cases h

theorem replaceLoop_returns (hfresh : Fresh r.search r.replace) :
    ∀ {fuel d : Nat} {temp : Text} (new : Text), temp.length ≤ 511 → (r.apply temp).length ≤ 511 →
      (∀ i < d, ¬ r.search <+: temp.drop i) → temp.length - d < fuel →
      ∃ t, replaceLoop r fuel temp new = some t
  | 0, _, _, _, _, _, _, hfuel => absurd hfuel (Nat.not_lt_zero _)
  | fuel + 1, d, temp, new, htemp, hwhole, hpassed, hfuel => by
    unfold replaceLoop
    cases hfirst : firstAt r.search temp with
    | none => exact ⟨_, rfl⟩
    | some len =>
      have hd : d ≤ len := Nat.le_of_not_lt fun hlt => hpassed len hlt (prefix_of_firstAt hfirst)
      have hinside := add_length_le_of_firstAt hfresh.1 hfirst
      have hpos := List.length_pos_iff.mpr hfresh.1
      have hfits := length_splice_le hfresh hfirst htemp hwhole
      show ∃ t, (if (splice r.search r.replace temp len).length + 1 ≤ stringSize then _ else _)
        = some t
      rw [if_pos (Nat.succ_le_succ hfits)]
      refine replaceLoop_returns hfresh _ hfits ?_ (not_prefix_splice hfresh hfirst) ?_
      · rw [Replacement.apply, replaced_splice hfresh hfirst]
        exact hwhole
      · unfold splice
        rw [List.length_append, List.length_append, List.length_take, List.length_drop]
        omega

theorem replaceAll_sound (hfresh : Fresh r.search r.replace)
    (h : replaceAll fuel text r = some out) :
    out = r.apply (text.take 511) ∧ out.length ≤ 511 := by
  obtain ⟨⟨temp, new⟩, hloop, rfl⟩ := Option.map_eq_some_iff.mp h
  obtain ⟨rfl, hlength, hnew⟩ :=
    replaceLoop_sound hfresh (List.length_take_le 511 text) (Or.inl rfl) hloop
  rcases hnew with rfl | rfl
  · exact ⟨rfl, hlength⟩
  · refine ⟨?_, ?_⟩ <;> dsimp only <;> split
    next => rfl
    next => rfl
    next => exact hlength
    next => exact hlength

theorem replaceAll_returns (hfresh : Fresh r.search r.replace) (hfuel : stringSize ≤ fuel)
    (hwhole : (r.apply (text.take 511)).length ≤ 511) : ∃ out, replaceAll fuel text r = some out := by
  have htext := List.length_take_le 511 text
  obtain ⟨t, ht⟩ := replaceLoop_returns hfresh (d := 0) [] htext hwhole
    (fun i hi => absurd hi (Nat.not_lt_zero i)) (Nat.lt_of_lt_of_le (Nat.lt_succ_of_le htext) hfuel)
  exact ⟨_, Option.map_eq_some_iff.mpr ⟨t, ht, rfl⟩⟩

theorem Replacement.ok_of_replaceAll (hfresh : Fresh r.search r.replace)
    (h : replaceAll fuel text r = some (r.apply text)) : r.Ok text := by
  obtain ⟨hsame, hlength⟩ := replaceAll_sound hfresh h
  exact ⟨hsame.symm, hlength⟩

theorem Replacement.Ok.replaceAll (hfresh : Fresh r.search r.replace) (h : r.Ok text)
    (hfuel : stringSize ≤ fuel) : replaceAll fuel text r = some (r.apply text) := by
  have hwhole : (r.apply (text.take 511)).length ≤ 511 := by
    rw [h.1]
    exact h.2
  obtain ⟨out, hout⟩ := replaceAll_returns hfresh hfuel hwhole
  rw [hout, (replaceAll_sound hfresh hout).1, h.1]

/-! ## The calls in turn -/

theorem fresh_of_calls {format : Format} :
    ∀ r ∈ calls format, Fresh r.search r.replace := by
  cases format <;> decide

theorem exact_iff_along {format : Format} {line : Text} :
    Exact format line ↔
      Along Replacement.apply (fun text r => r.Ok text) (lead format line) (calls format) := by
  have hfresh : Along Replacement.apply (fun _ r => Fresh r.search r.replace) (lead format line)
      (calls format) := Along.of_forall fresh_of_calls
  constructor
  · rintro ⟨fuel, -, h⟩
    refine Along.of_step (P := fun _ => True) (fun hboth _ => ⟨trivial, ?_⟩)
      (hfresh.and (run_eq_foldl_iff_along.mp h)) trivial
    exact Replacement.ok_of_replaceAll hboth.1 hboth.2
  · intro h
    have hall := run_eq_foldl_iff_along.mpr (Along.of_step (P := fun _ => True)
      (Q := fun text r => replaceAll stringSize text r = some (r.apply text))
      (fun hboth _ => ⟨trivial, hboth.2.replaceAll hboth.1 (Nat.le_refl _)⟩)
      (hfresh.and h) trivial)
    exact ⟨stringSize, hall _ (List.prefix_refl _), hall⟩

theorem Replacement.ok_of_shrinks (hfresh : Fresh r.search r.replace)
    (hshrinks : r.replace.length ≤ r.search.length) (htext : text.length ≤ 511) :
    (r.apply text).length ≤ 511 ∧ r.Ok text := by
  have hlength : (r.apply text).length ≤ 511 :=
    Nat.le_trans (length_replaced_le hshrinks hfresh.1 text) htext
  refine ⟨hlength, ?_, hlength⟩
  rw [List.take_of_length_le htext]

theorem along_of_shrinks (rs : List Replacement)
    (hrs : ∀ r ∈ rs, Fresh r.search r.replace ∧ r.replace.length ≤ r.search.length)
    (htext : text.length ≤ 511) :
    (rs.foldl Replacement.apply text).length ≤ 511 ∧
      Along Replacement.apply (fun text r => r.Ok text) text rs := by
  have hall : Along Replacement.apply
      (fun _ r => Fresh r.search r.replace ∧ r.replace.length ≤ r.search.length) text rs :=
    Along.of_forall hrs
  constructor
  · exact foldl_inv (P := fun text => text.length ≤ 511)
      (fun hr htext => (Replacement.ok_of_shrinks hr.1 hr.2 htext).1) rs hall htext
  · exact Along.of_step (P := fun text => text.length ≤ 511)
      (fun hr htext => Replacement.ok_of_shrinks hr.1 hr.2 htext) hall htext

theorem along_iff_of_grows (rs : List Replacement) :
    ∀ {text : Text}, (∀ r ∈ rs, Fresh r.search r.replace ∧ r.search.length ≤ r.replace.length) →
      text.length ≤ 511 →
      (Along Replacement.apply (fun text r => r.Ok text) text rs ↔
        (rs.foldl Replacement.apply text).length ≤ 511) := by
  induction rs with
  | nil => exact fun {text} _ htext => iff_of_true trivial htext
  | cons r rs ih =>
    intro text hrs htext
    have hrest : ∀ r ∈ rs, Fresh r.search r.replace ∧ r.search.length ≤ r.replace.length :=
      fun r hr => hrs r (List.mem_cons_of_mem _ hr)
    have hok : r.Ok text ↔ (r.apply text).length ≤ 511 := by
      refine ⟨fun h => h.2, fun h => ⟨?_, h⟩⟩
      rw [List.take_of_length_le htext]
    rw [List.foldl_cons]
    rcases Nat.lt_or_ge 511 (r.apply text).length with hlong | hfits
    · -- it does not get shorter again
      have hlater : (r.apply text).length ≤
          (rs.foldl Replacement.apply (r.apply text)).length :=
        foldl_inv (P := fun t : Text => (r.apply text).length ≤ t.length)
          (fun hr ht => Nat.le_trans ht (le_length_replaced hr.2 hr.1.1 _)) rs
          (Along.of_forall hrest) (Nat.le_refl _)
      exact iff_of_false (fun h => absurd (hok.mp h.1) (by omega)) (by omega)
    · rw [← ih hrest hfits]
      exact ⟨fun h => h.2, fun h => ⟨hok.mpr hfits, h⟩⟩

/-! ## How long the text gets -/

/-- The bytes that are umlauts. -/
def umlautBytes : List Byte := umlauts.flatMap (·.search)

/-- How many bytes come of a byte that is not the first of two newlines, behind a
backslash or not. -/
def width (slash : Bool) (b : Byte) : Nat :=
  if b = 10 ∨ slash ∧ b = 78 then 0 else if b ∈ umlautBytes then 2 else 1

/-- How many bytes come of a text without carriage returns: of two newlines and of `\N`
one, of a single newline none, of an umlaut two. The `N` may be behind a newline that is
left out. -/
def shown : Bool → Text → Nat
  | _, [] => 0
  | slash, [b] => width slash b
  | slash, b :: c :: text =>
    if b = 10 ∧ c = 10 then 1 + shown false text
    else width slash b + shown (if b = 10 then slash else b = 92) (c :: text)

/-- What fits the arrays. -/
def Fits : Format → Text → Prop
  | .srt, line => (∀ b ∈ line.drop 511, b = 13) ∧ shown false (line.filter (· ≠ 13)) ≤ 511
  | .ssa, line => (∀ b ∈ line.drop 511, b = 13) ∧ shown false (line.filter (· ≠ 13)) ≤ 511
  | .ass, line => (behindCommas 9 line).length ≤ 511

instance : ∀ (format : Format) (line : Text), Decidable (Fits format line)
  | .srt, _ => inferInstanceAs (Decidable (_ ∧ _))
  | .ssa, _ => inferInstanceAs (Decidable (_ ∧ _))
  | .ass, _ => inferInstanceAs (Decidable (_ ≤ _))

/-- The bytes of a text whose umlauts are still to be spelt out. -/
def spelt (bytes : List Byte) (text : Text) : Nat := text.length + text.countP (· ∈ bytes)

theorem spelt_cons (bytes : List Byte) (b : Byte) (text : Text) :
    spelt bytes (b :: text) = (if b ∈ bytes then 2 else 1) + spelt bytes text := by
  unfold spelt
  rw [List.length_cons, List.countP_cons]
  by_cases h : b ∈ bytes <;> simp [h] <;> omega

theorem spelt_replaced {bytes : List Byte} {u x y : Byte} (hx : x ∉ bytes) (hy : y ∉ bytes)
    (text : Text) :
    spelt bytes (replaced [u] [x, y] text) = spelt (u :: bytes) text := by
  rw [replaced_singleton]
  induction text with
  | nil => rfl
  | cons b text ih =>
    rw [List.flatMap_cons, spelt_cons, ← ih]
    by_cases hb : b = u
    · rw [if_pos hb, if_pos (by rw [hb]; exact List.mem_cons_self), List.cons_append,
        List.cons_append, List.nil_append, spelt_cons, spelt_cons, if_neg hx, if_neg hy]
      omega
    · rw [if_neg hb, List.cons_append, List.nil_append, spelt_cons]
      have : b ∈ u :: bytes ↔ b ∈ bytes := by
        rw [List.mem_cons]
        exact ⟨fun h => h.resolve_left hb, Or.inr⟩
      rw [if_congr this rfl rfl]

theorem length_foldl_umlauts (text : Text) :
    (umlauts.foldl Replacement.apply text).length = spelt umlautBytes text := by
  have hnone : ∀ t : Text, t.length = spelt [] t := by
    intro t
    induction t with
    | nil => rfl
    | cons b t ih =>
      rw [spelt_cons, List.length_cons, ← ih, if_neg (List.not_mem_nil)]
      exact Nat.add_comm _ _
  show (replaced [0xdf] [115, 115] (replaced [0xdc] [85, 101] (replaced [0xc4] [65, 101]
    (replaced [0xd6] [79, 101] (replaced [0xfc] [117, 101] (replaced [0xe4] [97, 101]
    (replaced [0xf6] [111, 101] text))))))).length = _
  rw [hnone]
  repeat rw [spelt_replaced (by decide) (by decide)]
  rfl

/-! ### Newlines -/

/-- What the first two calls about newlines come to. -/
def paired (text : Text) : Text := replaced [10] [] (replaced [10, 10] [92, 78] text)

/-- What the third comes to. -/
def broken (text : Text) : Text := replaced [92, 78] [10] text

theorem paired_pair (text : Text) : paired (10 :: 10 :: text) = 92 :: 78 :: paired text := by
  have hpair : [(10 : Byte), 10] <+: 10 :: 10 :: text := ⟨text, rfl⟩
  unfold paired
  rw [replaced_of_begins (List.cons_ne_nil _ _) hpair, replaced_singleton_nil,
    replaced_singleton_nil]
  rfl

theorem paired_newline (h : text.head? ≠ some 10) : paired (10 :: text) = paired text := by
  have hnot : ¬ [(10 : Byte), 10] <+: 10 :: text := by
    intro hbegins
    obtain ⟨rest, hrest⟩ := List.cons_prefix_cons.mp hbegins |>.2
    exact h (by rw [← hrest]; rfl)
  unfold paired
  rw [replaced_of_not_begins hnot, replaced_singleton_nil, replaced_singleton_nil]
  rfl

variable {b : Byte}

theorem paired_other (h : b ≠ 10) : paired (b :: text) = b :: paired text := by
  have hnot : ¬ [(10 : Byte), 10] <+: b :: text :=
    fun hbegins => h (List.cons_prefix_cons.mp hbegins).1.symm
  unfold paired
  rw [replaced_of_not_begins hnot, replaced_singleton_nil, replaced_singleton_nil,
    List.filter_cons_of_pos (by simpa using h)]

theorem broken_pair (text : Text) : broken (92 :: 78 :: text) = 10 :: broken text := by
  have hpair : [(92 : Byte), 78] <+: 92 :: 78 :: text := ⟨text, rfl⟩
  unfold broken
  rw [replaced_of_begins (List.cons_ne_nil _ _) hpair]
  rfl

theorem broken_slash (h : text.head? ≠ some 78) : broken (92 :: text) = 92 :: broken text := by
  refine replaced_of_not_begins fun hbegins => ?_
  obtain ⟨rest, hrest⟩ := List.cons_prefix_cons.mp hbegins |>.2
  exact h (by rw [← hrest]; rfl)

theorem broken_other (h : b ≠ 92) : broken (b :: text) = b :: broken text :=
  replaced_of_not_begins fun hbegins => h (List.cons_prefix_cons.mp hbegins).1.symm

theorem shown_pair (slash : Bool) (text : Text) :
    shown slash (10 :: 10 :: text) = 1 + shown false text := by
  rw [shown, if_pos ⟨rfl, rfl⟩]

theorem shown_cons {slash : Bool} (h : ¬ (b = 10 ∧ text.head? = some 10)) :
    shown slash (b :: text) =
      width slash b + shown (if b = 10 then slash else b = 92) text := by
  cases text with
  | nil => rfl
  | cons c text =>
    rw [shown, if_neg]
    rintro ⟨hb, rfl⟩
    exact h ⟨hb, rfl⟩

/-- A backslash that is still to be looked at. -/
def pending : Bool → Text
  | true => [92]
  | false => []

theorem spelt_cons_of_not_mem {bytes : List Byte} (h : b ∉ bytes) :
    spelt bytes (b :: text) = 1 + spelt bytes text := by
  rw [spelt_cons, if_neg h]

theorem width_of_kept (slash : Bool) (hb : b ≠ 10) (h : slash = true → b ≠ 78) :
    width slash b = if b ∈ umlautBytes then 2 else 1 :=
  if_neg fun hlost => hlost.elim hb fun hn => h hn.1 hn.2

theorem spelt_broken_cons (slash : Bool) (hb : b ≠ 10) (text : Text) :
    spelt umlautBytes (broken (pending slash ++ b :: text)) + (decide (b = 92)).toNat =
      slash.toNat + width slash b +
        spelt umlautBytes (broken (pending (b = 92) ++ text)) := by
  have hslash : (92 : Byte) ∉ umlautBytes := by decide
  by_cases h92 : b = 92
  · subst h92
    cases slash with
    | true =>
      show spelt umlautBytes (broken (92 :: 92 :: text)) + 1 = 1 + 1 + _
      rw [broken_slash (by simp), spelt_cons_of_not_mem hslash]
      exact Nat.add_right_comm _ _ _
    | false => exact Nat.add_comm _ _
  · rw [decide_eq_false h92]
    have hplain : spelt umlautBytes (broken (b :: text)) =
        (if b ∈ umlautBytes then 2 else 1) + spelt umlautBytes (broken text) := by
      rw [broken_other h92, spelt_cons]
    cases slash with
    | true =>
      by_cases h78 : b = 78
      · subst h78
        show spelt umlautBytes (broken (92 :: 78 :: text)) + 0 = 1 + 0 + _
        rw [broken_pair, spelt_cons_of_not_mem (by decide)]
        rfl
      · show spelt umlautBytes (broken (92 :: b :: text)) + 0 = 1 + _ + _
        rw [broken_slash (by simpa using h78), spelt_cons_of_not_mem hslash, hplain,
          width_of_kept true hb fun _ => h78]
        exact (Nat.add_assoc _ _ _).symm
    | false =>
      show spelt umlautBytes (broken (b :: text)) + 0 = 0 + _ + _
      rw [hplain, width_of_kept false hb (fun h => absurd h Bool.false_ne_true),
        Nat.zero_add]
      rfl

theorem spelt_broken : ∀ (slash : Bool) (text : Text),
    spelt umlautBytes (broken (pending slash ++ paired text)) = slash.toNat + shown slash text
  | true, [] => by decide
  | false, [] => by decide
  | slash, b :: text => by
    by_cases hpair : b = 10 ∧ text.head? = some 10
    · obtain ⟨rfl, htext⟩ := hpair
      obtain ⟨rest, rfl⟩ := List.head?_eq_some_iff.mp htext
      have hrest : spelt umlautBytes (broken (paired rest)) = 0 + shown false rest :=
        spelt_broken false rest
      have hstep := spelt_broken_cons slash (b := 92) (by decide) (78 :: paired rest)
      have hbreak : spelt umlautBytes (broken (92 :: 78 :: paired rest)) =
          1 + spelt umlautBytes (broken (paired rest)) := by
        rw [broken_pair, spelt_cons_of_not_mem (by decide)]
      have hwidth : width slash 92 = 1 := by cases slash <;> decide
      change _ + 1 = _ + _ + spelt umlautBytes (broken (92 :: 78 :: paired rest)) at hstep
      rw [paired_pair, shown_pair]
      omega
    · rw [shown_cons hpair]
      by_cases hb : b = 10
      · subst hb
        rw [paired_newline fun h => hpair ⟨rfl, h⟩, spelt_broken slash text, if_pos rfl]
        show _ = _ + (0 + _)
        rw [Nat.zero_add]
      · have hstep := spelt_broken_cons slash hb (paired text)
        rw [spelt_broken _ text] at hstep
        rw [paired_other hb, if_neg hb]
        omega
  termination_by _ text => text.length

/-! ## Exactly where the functions are right -/

theorem along_newlines_umlauts_iff (htext : text.length ≤ 511) :
    Along Replacement.apply (fun text r => r.Ok text) text (newlines ++ umlauts) ↔
      shown false text ≤ 511 := by
  obtain ⟨hlength, hnewlines⟩ := along_of_shrinks newlines (by decide) htext
  have hshown : spelt umlautBytes (newlines.foldl Replacement.apply text) = shown false text :=
    (spelt_broken false text).trans (Nat.zero_add _)
  rw [along_append, along_iff_of_grows umlauts (by decide) hlength,
    length_foldl_umlauts, hshown]
  exact and_iff_right hnewlines

theorem carriageReturn_apply_take_iff :
    carriageReturn.apply (text.take 511) = carriageReturn.apply text ↔
      ∀ b ∈ text.drop 511, b = 13 := by
  have hcut : text.filter (· ≠ 13) =
      (text.take 511).filter (· ≠ 13) ++ (text.drop 511).filter (· ≠ (13 : Byte)) := by
    rw [← List.filter_append, List.take_append_drop]
  unfold Replacement.apply carriageReturn
  rw [replaced_singleton_nil, replaced_singleton_nil, hcut, List.self_eq_append_right,
    List.filter_eq_nil_iff]
  exact forall₂_congr fun b _ => by simp

theorem along_carriageReturn_iff {line : Text} :
    Along Replacement.apply (fun text r => r.Ok text) line
        (carriageReturn :: newlines ++ umlauts) ↔
      (∀ b ∈ line.drop 511, b = 13) ∧ shown false (line.filter (· ≠ 13)) ≤ 511 := by
  have hfilter : carriageReturn.apply line = line.filter (· ≠ 13) := replaced_singleton_nil 13 line
  constructor
  · rintro ⟨⟨hsame, hlength⟩, hrest⟩
    refine ⟨carriageReturn_apply_take_iff.mp hsame, ?_⟩
    rw [← hfilter]
    exact (along_newlines_umlauts_iff hlength).mp hrest
  · rintro ⟨htail, hshown⟩
    have hsame := carriageReturn_apply_take_iff.mpr htail
    have hlength : (carriageReturn.apply line).length ≤ 511 := by
      rw [← hsame]
      exact Nat.le_trans (length_replaced_le (by decide) (by decide) _)
        (List.length_take_le 511 line)
    refine ⟨⟨hsame, hlength⟩, (along_newlines_umlauts_iff hlength).mpr ?_⟩
    rw [hfilter]
    exact hshown

theorem along_ass_iff {line : Text} :
    Along Replacement.apply (fun text r => r.Ok text) line (calls .ass) ↔ line.length ≤ 511 := by
  constructor
  · rintro ⟨⟨hsame, -⟩, -⟩
    exact (replaced_take_eq_iff (by decide) (by decide)).mp hsame
  · exact fun hline => (along_of_shrinks (calls .ass) (by decide) hline).2

/-- The functions are right exactly where what is cut off is nothing but carriage returns
and the text with its umlauts spelt out fits the array; for ASS, where nothing is cut
off. -/
theorem parse_exact_iff (format : Format) (line : Text) :
    Exact format line ↔ Fits format line := by
  rw [exact_iff_along]
  cases format with
  | srt => exact along_carriageReturn_iff
  | ssa => exact along_carriageReturn_iff
  | ass => exact along_ass_iff

set_option maxRecDepth 4000 in
/-- 256 umlauts come to a byte more than the array has room for. -/
theorem parse_overrun : ¬ Exact .srt (List.replicate 256 0xf6) := by
  rw [exact_iff_along]
  intro h
  have hshown := (along_carriageReturn_iff.mp h).2
  revert hshown
  decide

end Duckbox.Libeplayer3.SubtitleText
