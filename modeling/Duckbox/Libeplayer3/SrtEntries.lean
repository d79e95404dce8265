import Mathlib.Algebra.Group.Nat.Defs
import Duckbox.Libeplayer3.SrtReader

/-!
# Entries of SRT files

A line that is as long as its pieces leaves a piece which looks like an empty line
(`Splits`). Behind the last line of a block that does no harm, as the empty line is
expected there, and the one that follows is skipped; in front of another line it ends the
entry.

> `srtSubtitleThread_entries_iff`: the entries of a file are passed on, exactly if no line
> of text but the last of its block splits.

The lines of a block are followed one by one (`read_line`, `read_split`); what is passed on
stays (`passed_foldl`), so that the first entry that is cut is there in the end.
-/

namespace Duckbox.Libeplayer3.Srt

open Reader

/-! ## Pieces of lines -/

section

variable {data l rest : List Byte}

theorem chunks_short (h : ∀ b ∈ l, b ≠ 10) (hlength : data.length + l.length < 79) :
    chunks data (l ++ rest) = chunks (data ++ l) rest := by
  induction l generalizing data with
  | nil => rw [List.nil_append, List.append_nil]
  | cons b l ih =>
    obtain ⟨hb, hl⟩ := List.forall_mem_cons.mp h
    rw [List.length_cons] at hlength
    have hroom : ¬ (b = 10 ∨ data.length + 2 = maxLineLength) := by
      rintro (hend | hfull)
      · exact hb hend
      · have hmax : maxLineLength = 80 := rfl
        omega
    rw [List.cons_append, chunks, if_neg hroom, ih hl (by simpa using by omega)]
    simp

theorem chunks_full (h : ∀ b ∈ l, b ≠ 10) (hlength : l.length = 79) :
    chunks [] (l ++ rest) = l :: chunks [] rest := by
  have hne : l ≠ [] := List.ne_nil_of_length_eq_add_one hlength
  have hlast : l = l.dropLast ++ [l.getLast hne] := (List.dropLast_append_getLast hne).symm
  have hshort : l.dropLast.length = 78 := by
    rw [List.length_dropLast, hlength]
  have hplain : ∀ b ∈ l.dropLast, b ≠ 10 := fun b hb => h b (List.dropLast_subset l hb)
  have hwhole : l ++ rest = l.dropLast ++ l.getLast hne :: rest := by
    rw [List.append_cons, ← hlast]
  calc chunks [] (l ++ rest) = chunks [] (l.dropLast ++ l.getLast hne :: rest) := by rw [← hwhole]
    _ = chunks l.dropLast (l.getLast hne :: rest) := by
        rw [chunks_short hplain (by rw [hshort]; decide), List.nil_append]
    _ = (l.dropLast ++ [l.getLast hne]) :: chunks [] rest := by
        rw [chunks, if_pos (.inr (by rw [hshort]))]
    _ = l :: chunks [] rest := by rw [← hlast]

theorem chunks_newline (h : ∀ b ∈ l, b ≠ 10) (hlength : l.length < 79) :
    chunks [] (l ++ 10 :: rest) = (l ++ [10]) :: chunks [] rest := by
  rw [chunks_short h (by simpa using hlength), List.nil_append, chunks, if_pos (.inl rfl)]

theorem chunks_end (h : ∀ b ∈ l, b ≠ 10) (hlength : l.length < 79) :
    chunks [] l = if l = [] then [] else [l] := by
  have hshort := @chunks_short [] l [] h (by simpa using hlength)
  rw [List.append_nil, List.nil_append] at hshort
  rw [hshort, chunks]

end

/-! ## What stays -/

theorem passed_step (r : Reader) (data : List Byte) : r.passed <+: (r.step data).passed := by
  unfold step
  dsimp only
  split
  · split
    · exact List.prefix_rfl
    · exact List.prefix_rfl
  · split
    · split
      · exact List.prefix_rfl
      · exact List.prefix_rfl
    · split
      · split
        · exact List.prefix_append _ _
        · exact List.prefix_rfl
      · exact List.prefix_rfl

theorem passed_foldl (pieces : List (List Byte)) (r : Reader) :
    r.passed <+: (pieces.foldl step r).passed := by
  induction pieces generalizing r with
  | nil => exact List.prefix_rfl
  | cons data pieces ih => exact (passed_step r data).trans (ih _)

theorem passed_finish (r : Reader) : r.passed <+: r.finish.passed := by
  unfold finish
  split
  · exact List.prefix_append _ _
  · exact List.prefix_rfl

/-! ## The text of an entry -/

theorem strip_append {front text ends : List Byte} (hne : text ≠ [])
    (htext : ∀ b ∈ text, endsLine b = false) (hends : ∀ b ∈ ends, endsLine b = true) :
    strip (front ++ (text ++ ends)) = front ++ text := by
  obtain ⟨b, l, hcons⟩ : ∃ b l, front ++ text = b :: l :=
    List.exists_cons_of_ne_nil (List.append_ne_nil_of_right_ne_nil _ hne)
  have hdrop : (l ++ ends).rdropWhile endsLine = l.rdropWhile endsLine := by
    unfold List.rdropWhile
    rw [List.reverse_append,
      List.dropWhile_append_of_pos fun c hc => hends c (List.mem_reverse.mp hc)]
  have hkeep : l.rdropWhile endsLine = l := by
    refine List.rdropWhile_eq_self_iff.mpr fun hl => ?_
    have hlast : (front ++ text).getLast (List.append_ne_nil_of_right_ne_nil _ hne) =
        text.getLast hne := List.getLast_append_of_ne_nil _ hne
    simp only [hcons] at hlast
    rw [← List.getLast_cons hl, hlast, htext _ (List.getLast_mem hne)]
    exact Bool.false_ne_true
  rw [← List.append_assoc, hcons]
  show b :: (l ++ ends).rdropWhile endsLine = b :: l
  rw [hdrop, hkeep]

/-! ## Lines of text -/

/-- Bytes of text. -/
def Plain (text : List Byte) : Prop := ∀ b ∈ text, b ≠ 0 ∧ b ≠ 10 ∧ b ≠ 13

/-- The last piece of a line begins with its end. -/
def Splits (text : List Byte) (carriage : Bool) : Prop :=
  79 ∣ text.length ∨ carriage = true ∧ 79 ∣ text.length + 1

instance (text : List Byte) (carriage : Bool) : Decidable (Splits text carriage) :=
  inferInstanceAs (Decidable (_ ∨ _ ∧ _))

/-- The thread's loop over the rest of a file. -/
def read (r : Reader) (file : List Byte) : Reader := (chunks [] file).foldl step r

/-- A text is passed on, and the next entry begins. -/
def Reader.passOn (r : Reader) (text : List Byte) : Reader :=
  { r.dataToManager text with text := none, pos := 0 }

section

variable {r : Reader} {data text ends rest : List Byte} {carriage : Bool}

theorem Plain.drop (h : Plain text) (n : Nat) : Plain (text.drop n) :=
  fun b hb => h b (List.mem_of_mem_drop hb)

theorem Plain.take (h : Plain text) (n : Nat) : Plain (text.take n) :=
  fun b hb => h b (List.mem_of_mem_take hb)

theorem Plain.not_endsLine (h : Plain text) : ∀ b ∈ text, endsLine b = false := by
  intro b hb
  obtain ⟨-, h10, h13⟩ := h b hb
  exact decide_eq_false (not_or_intro h10 h13)

theorem isBlank_plain (h : Plain text) (hne : text ≠ []) : isBlank (text ++ ends) = false := by
  obtain ⟨b, l, rfl⟩ := List.exists_cons_of_ne_nil hne
  obtain ⟨h0, h10, h13⟩ := h b List.mem_cons_self
  exact decide_eq_false (not_or_intro h10 (not_or_intro h0 h13))

theorem endsLine_lineEnd : ∀ b ∈ lineEnd carriage, endsLine b = true := by
  cases carriage <;> decide

theorem string_plain (h : Plain text) (hends : ∀ b ∈ ends, endsLine b = true) :
    (text ++ ends).takeWhile (· ≠ 0) = text ++ ends := by
  refine List.takeWhile_eq_self_iff.mpr fun b hb => ?_
  rcases List.mem_append.mp hb with hb | hb
  · exact decide_eq_true (h b hb).1
  · refine decide_eq_true fun hzero => ?_
    rw [hzero] at hb
    exact absurd (hends 0 hb) (by decide)

theorem step_text (ends : List Byte) (hpos : r.pos = 2) (h : Plain text) (hne : text ≠ [])
    (hends : ∀ b ∈ ends, endsLine b = true) :
    r.step (text ++ ends) = { r with text := some (r.text.getD [] ++ (text ++ ends)) } := by
  unfold step
  rw [hpos, isBlank_plain h hne, string_plain h hends]
  rfl

theorem step_blank (hpos : r.pos = 2) (hblank : isBlank data = true) :
    r.step data = r.passOn (r.text.getD [32, 10]) := by
  unfold step
  rw [hpos, hblank]
  rfl

theorem read_newline (h : ∀ b ∈ data, b ≠ 10) (hlength : data.length < 79) :
    read r (data ++ 10 :: rest) = read (r.step (data ++ [10])) rest := by
  unfold read
  rw [chunks_newline h hlength, List.foldl_cons]

theorem read_full (h : ∀ b ∈ data, b ≠ 10) (hlength : data.length = 79) :
    read r (data ++ rest) = read (r.step data) rest := by
  unfold read
  rw [chunks_full h hlength, List.foldl_cons]

theorem lineEnd_eq : lineEnd carriage = (if carriage then [13] else []) ++ [10] := by
  cases carriage <;> rfl

theorem text_ne_newline (h : Plain text) :
    ∀ b ∈ text ++ (if carriage then [13] else []), b ≠ 10 := by
  intro b hb
  rcases List.mem_append.mp hb with hb | hb
  · exact (h b hb).2.1
  · cases carriage
    · exact absurd hb List.not_mem_nil
    · rw [List.mem_singleton.mp hb]
      decide

theorem read_short (hlength : (text ++ (if carriage then [13] else [])).length < 79)
    (h : Plain text) :
    read r (text ++ lineEnd carriage ++ rest) = read (r.step (text ++ lineEnd carriage)) rest := by
  have hline : text ++ lineEnd carriage = text ++ (if carriage then [13] else []) ++ [10] := by
    rw [lineEnd_eq, List.append_assoc]
  rw [hline, List.append_assoc _ [10] rest]
  exact read_newline (text_ne_newline h) hlength

theorem isBlank_lineEnd : isBlank (lineEnd carriage) = true := by
  cases carriage <;> rfl

theorem read_lineEnd : read r (lineEnd carriage ++ rest) = read (r.step (lineEnd carriage)) rest := by
  have hempty : Plain [] := fun b hb => absurd hb List.not_mem_nil
  have hshort : ([] ++ (if carriage then [13] else []) : List Byte).length < 79 := by
    cases carriage <;> decide
  exact @read_short r [] rest carriage hshort hempty

theorem read_take (h : Plain text) (hlength : 79 ≤ text.length) :
    read r (text ++ lineEnd carriage ++ rest) =
      read (r.step (text.take 79)) (text.drop 79 ++ lineEnd carriage ++ rest) := by
  have htake : (text.take 79).length = 79 := List.length_take_of_le hlength
  have hcut : text ++ lineEnd carriage ++ rest =
      text.take 79 ++ (text.drop 79 ++ lineEnd carriage ++ rest) := by
    rw [← List.append_assoc, ← List.append_assoc, List.take_append_drop]
  rw [hcut, read_full (fun b hb => (h.take 79 b hb).2.1) htake]

theorem read_return (h : Plain text) (hlength : text.length = 78) :
    read r (text ++ lineEnd true ++ rest) =
      read (r.step (text ++ [13])) ([] ++ lineEnd false ++ rest) := by
  have hpiece : ∀ b ∈ text ++ [13], b ≠ 10 := @text_ne_newline text true h
  have hline : text ++ lineEnd true ++ rest = text ++ [13] ++ ([] ++ lineEnd false ++ rest) := by
    simp [lineEnd]
  rw [hline, read_full hpiece (by simpa using hlength)]

theorem short_or_return (carriage : Bool) (hlength : ¬ 79 ≤ text.length) :
    (text ++ (if carriage then [13] else [])).length < 79 ∨
      carriage = true ∧ text.length = 78 := by
  cases carriage with
  | false =>
    refine .inl ?_
    show (text ++ []).length < 79
    rw [List.append_nil]
    omega
  | true =>
    by_cases hfull : text.length = 78
    · exact .inr ⟨rfl, hfull⟩
    · refine .inl ?_
      show (text ++ [13]).length < 79
      rw [List.length_append, List.length_singleton]
      omega

theorem take_ne_nil (hlength : 79 ≤ text.length) : text.take 79 ≠ [] :=
  List.ne_nil_of_length_eq_add_one (List.length_take_of_le hlength)

theorem step_take (hpos : r.pos = 2) (h : Plain text) (hlength : 79 ≤ text.length) :
    r.step (text.take 79) = { r with text := some (r.text.getD [] ++ text.take 79) } := by
  have hstep := step_text [] hpos (h.take 79) (take_ne_nil hlength)
    fun b hb => absurd hb List.not_mem_nil
  rwa [List.append_nil] at hstep

theorem splits_drop (hlength : 79 ≤ text.length) :
    Splits (text.drop 79) carriage ↔ Splits text carriage := by
  have htext : 79 ∣ text.length - 79 ↔ 79 ∣ text.length := by omega
  have hreturn : 79 ∣ text.length - 79 + 1 ↔ 79 ∣ text.length + 1 := by omega
  unfold Splits
  rw [List.length_drop, htext, hreturn]

theorem read_line (hpos : r.pos = 2) (h : Plain text) (hsplit : ¬ Splits text carriage) :
    read r (text ++ lineEnd carriage ++ rest) =
      read { r with text := some (r.text.getD [] ++ (text ++ lineEnd carriage)) } rest := by
  induction hsize : text.length using Nat.strong_induction_on generalizing text r with
  | _ size ih =>
    by_cases hlong : 79 ≤ text.length
    · have hrest := ih (text.drop 79).length (by rw [List.length_drop]; omega)
        (r := { r with text := some (r.text.getD [] ++ text.take 79) }) hpos (h.drop 79)
        (fun hdrop => hsplit ((splits_drop hlong).mp hdrop)) rfl
      rw [read_take h hlong, step_take hpos h hlong, hrest]
      simp only [Option.getD_some, List.append_assoc]
      rw [← List.append_assoc (text.take 79), List.take_append_drop]
    · have hne : text ≠ [] := fun hnil => hsplit (.inl (by rw [hnil]; exact Nat.dvd_zero 79))
      rcases short_or_return carriage hlong with hshort | ⟨hreturn, hfull⟩
      · rw [read_short hshort h, step_text _ hpos h hne endsLine_lineEnd]
      · exact absurd (.inr ⟨hreturn, by omega⟩) hsplit

theorem read_split (hpos : r.pos = 2) (h : Plain text) (hsplit : Splits text carriage)
    (hkept : text ≠ [] ∨ r.text ≠ none) :
    ∃ ends, (∀ b ∈ ends, endsLine b = true) ∧
      read r (text ++ lineEnd carriage ++ rest) =
        read (r.passOn (r.text.getD [] ++ (text ++ ends))) rest := by
  induction hsize : text.length using Nat.strong_induction_on generalizing text r with
  | _ size ih =>
    by_cases hlong : 79 ≤ text.length
    · obtain ⟨ends, hends, hrest⟩ := ih (text.drop 79).length (by rw [List.length_drop]; omega)
        (r := { r with text := some (r.text.getD [] ++ text.take 79) }) hpos (h.drop 79)
        ((splits_drop hlong).mpr hsplit) (.inr (Option.some_ne_none _)) rfl
      refine ⟨ends, hends, ?_⟩
      rw [read_take h hlong, step_take hpos h hlong, hrest]
      simp only [Option.getD_some, List.append_assoc]
      rw [← List.append_assoc (text.take 79), List.take_append_drop]
      rfl
    · rcases short_or_return carriage hlong with hshort | ⟨rfl, hfull⟩
      · -- nothing is left but the end of the line
        have hnil : text = [] := by
          rcases hsplit with hwhole | ⟨rfl, hreturn⟩
          · exact List.eq_nil_of_length_eq_zero (by omega)
          · have hlength : (text ++ [13]).length < 79 := hshort
            rw [List.length_append, List.length_singleton] at hlength
            omega
        obtain ⟨front, hfront⟩ := Option.ne_none_iff_exists'.mp (hkept.resolve_left fun h => h hnil)
        refine ⟨[], fun b hb => absurd hb List.not_mem_nil, ?_⟩
        rw [hnil, List.nil_append, read_lineEnd, step_blank hpos isBlank_lineEnd, hfront]
        simp
      · have hne : text ≠ [] := List.ne_nil_of_length_eq_add_one hfull
        have hends : ∀ b ∈ ([13] : List Byte), endsLine b = true := by decide
        refine ⟨[13], hends, ?_⟩
        rw [read_return h hfull, step_text [13] hpos h hne hends, List.nil_append, read_lineEnd]
        have hblank : ({ r with text := some (r.text.getD [] ++ (text ++ [13])) } : Reader).step
            (lineEnd false) = Reader.passOn _ _ := step_blank hpos rfl
        rw [hblank]
        rfl

end

/-! ## Numbers and times -/

section

variable {r : Reader} {digits ends rest : List Byte} {carriage : Bool}

theorem isDigit_plain {b : Byte} (h : isDigit b = true) : b ≠ 0 ∧ b ≠ 10 ∧ b ≠ 13 := by
  refine ⟨?_, ?_, ?_⟩
  · rintro rfl
    exact absurd h (by decide)
  · rintro rfl
    exact absurd h (by decide)
  · rintro rfl
    exact absurd h (by decide)

theorem isDigit_notSpace {b : Byte} (h : isDigit b = true) : isSpace b = false := by
  have hbounds : 48 ≤ b.toNat ∧ b.toNat ≤ 57 := of_decide_eq_true h
  refine decide_eq_false ?_
  rintro (rfl | hspace)
  · exact absurd hbounds.1 (by decide)
  · omega

theorem scanInt_digits (h : ∀ b ∈ digits, isDigit b = true) (hne : digits ≠ [])
    (hrest : ∀ b ∈ rest.head?, isDigit b = false) :
    scanInt (digits ++ rest) = some ((decimal digits : Int), rest) := by
  have htake : (digits ++ rest).takeWhile isDigit = digits := by
    rw [List.takeWhile_append_of_pos h]
    cases rest with
    | nil => exact List.append_nil _
    | cons b rest => rw [List.takeWhile_cons_of_neg (by simp [hrest b rfl]), List.append_nil]
  have hdrop : (digits ++ rest).dropWhile isDigit = rest := by
    rw [List.dropWhile_append_of_pos h]
    cases rest with
    | nil => rfl
    | cons b rest => rw [List.dropWhile_cons_of_neg (by simp [hrest b rfl])]
  obtain ⟨d, l, rfl⟩ := List.exists_cons_of_ne_nil hne
  have hd := h d List.mem_cons_self
  have hspace : (d :: l ++ rest).dropWhile isSpace = d :: l ++ rest :=
    List.dropWhile_cons_of_neg (by simp [isDigit_notSpace hd])
  have hsign : scanSign (d :: l ++ rest) = (false, d :: l ++ rest) := by
    have hminus : d ≠ 45 := by
      rintro rfl
      exact absurd hd (by decide)
    have hplus : d ≠ 43 := by
      rintro rfl
      exact absurd hd (by decide)
    show scanSign (d :: (l ++ rest)) = _
    rw [scanSign, if_neg hminus, if_neg hplus]
    rfl
  unfold scanInt
  rw [hspace, hsign]
  dsimp only
  rw [htake, hdrop, if_neg (List.cons_ne_nil _ _)]
  rfl

theorem endsLine_notDigit {b : Byte} (h : endsLine b = true) : isDigit b = false ∧ b ≠ 58 := by
  rcases of_decide_eq_true h with rfl | rfl
  · decide
  · decide

theorem scanTimes_digits (h : ∀ b ∈ digits, isDigit b = true)
    (hends : ∀ b ∈ ends, endsLine b = true) : scanTimes (digits ++ ends) = none := by
  have hhead : ∀ b ∈ ends.head?, isDigit b = false := fun b hb =>
    (endsLine_notDigit (hends b (List.mem_of_mem_head? hb))).1
  have htime : scanTime (digits ++ ends) = none := by
    unfold scanTime
    by_cases hne : digits = []
    · have hspace : ends.dropWhile isSpace = [] := by
        refine List.dropWhile_eq_nil_iff.mpr fun b hb => ?_
        rcases of_decide_eq_true (hends b hb) with rfl | rfl
        · rfl
        · rfl
      have hnone : scanInt ends = none := by
        unfold scanInt
        rw [hspace]
        rfl
      rw [hne, List.nil_append, hnone]
      rfl
    · have hcolon : scanByte 58 ends = none := by
        cases ends with
        | nil => rfl
        | cons b ends => exact if_neg (endsLine_notDigit (hends b List.mem_cons_self)).2
      rw [scanInt_digits h hne hhead]
      show (scanByte 58 ends).bind _ = none
      rw [hcolon]
      rfl
  unfold scanTimes
  rw [htime]
  rfl

theorem digit_toNat {n : Nat} (h : n < 10) : (digit n).toNat = 48 + n := by
  unfold digit
  rw [BitVec.toNat_ofNat]
  omega

theorem isDigit_digit {n : Nat} (h : n < 10) : isDigit (digit n) = true := by
  refine decide_eq_true ?_
  rw [digit_toNat h]
  omega

theorem scanTime_bytes (t : Time) (hrest : ∀ b ∈ rest.head?, isDigit b = false) :
    scanTime (t.bytes ++ rest) = some (⟨t.hours, t.minutes, t.seconds, t.millis⟩, rest) := by
  have hh := t.hours.isLt
  have hm := t.minutes.isLt
  have hs := t.seconds.isLt
  have hms := t.millis.isLt
  have htwo : ∀ {n : Nat} {rest : List Byte}, n < 100 → (∀ b ∈ rest.head?, isDigit b = false) →
      scanInt ([digit (n / 10), digit (n % 10)] ++ rest) = some ((n : Int), rest) := by
    intro n rest hn hrest
    have hdigits : ∀ b ∈ [digit (n / 10), digit (n % 10)], isDigit b = true := by
      rw [List.forall_mem_cons, List.forall_mem_singleton]
      exact ⟨isDigit_digit (by omega), isDigit_digit (by omega)⟩
    have hvalue : decimal [digit (n / 10), digit (n % 10)] = n := by
      show 10 * (10 * 0 + ((digit (n / 10)).toNat - 48)) + ((digit (n % 10)).toNat - 48) = n
      rw [digit_toNat (by omega), digit_toNat (by omega)]
      omega
    rw [scanInt_digits hdigits (List.cons_ne_nil _ _) hrest, hvalue]
  have hthree : scanInt ([digit (t.millis / 100), digit (t.millis / 10 % 10),
      digit (t.millis % 10)] ++ rest) = some ((t.millis : Int), rest) := by
    have hdigits : ∀ b ∈ [digit (t.millis / 100), digit (t.millis / 10 % 10),
        digit (t.millis % 10)], isDigit b = true := by
      rw [List.forall_mem_cons, List.forall_mem_cons, List.forall_mem_singleton]
      exact ⟨isDigit_digit (by omega), isDigit_digit (by omega), isDigit_digit (by omega)⟩
    have hvalue : decimal [digit (t.millis / 100), digit (t.millis / 10 % 10),
        digit (t.millis % 10)] = t.millis := by
      show 10 * (10 * (10 * 0 + ((digit (t.millis / 100)).toNat - 48)) +
        ((digit (t.millis / 10 % 10)).toNat - 48)) + ((digit (t.millis % 10)).toNat - 48) = _
      rw [digit_toNat (by omega), digit_toNat (by omega), digit_toNat (by omega)]
      omega
    rw [scanInt_digits hdigits (List.cons_ne_nil _ _) hrest, hvalue]
  have hcolon : ∀ {s : List Byte}, ∀ b ∈ (58 :: s : List Byte).head?, isDigit b = false := by
    rintro s b ⟨⟩
    rfl
  have hcomma : ∀ {s : List Byte}, ∀ b ∈ (44 :: s : List Byte).head?, isDigit b = false := by
    rintro s b ⟨⟩
    rfl
  have hbyte : ∀ (b : Byte) (s : List Byte), scanByte b (b :: s) = some s := fun b s => if_pos rfl
  have hbytes : t.bytes ++ rest = [digit (t.hours / 10), digit (t.hours % 10)] ++ 58 ::
      ([digit (t.minutes / 10), digit (t.minutes % 10)] ++ 58 ::
        ([digit (t.seconds / 10), digit (t.seconds % 10)] ++ 44 ::
          ([digit (t.millis / 100), digit (t.millis / 10 % 10), digit (t.millis % 10)] ++ rest))) := rfl
  unfold scanTime
  rw [hbytes, htwo hh hcolon]
  simp only [Option.bind_eq_bind, Option.bind_some, hbyte]
  rw [htwo (by omega) hcolon]
  simp only [Option.bind_some, hbyte]
  rw [htwo (by omega) hcomma]
  simp only [Option.bind_some, hbyte]
  rw [hthree]
  rfl

theorem scanTimes_bytes (start finish : Time) :
    scanTimes (start.bytes ++ ([32, 45, 45, 62, 32] ++ (finish.bytes ++ lineEnd carriage))) =
      some (⟨start.hours, start.minutes, start.seconds, start.millis⟩,
        ⟨finish.hours, finish.minutes, finish.seconds, finish.millis⟩) := by
  have hspace : ∀ b ∈ ([32, 45, 45, 62, 32] ++ (finish.bytes ++ lineEnd carriage)).head?,
      isDigit b = false := by
    rintro b ⟨⟩
    rfl
  have hend : ∀ b ∈ (lineEnd carriage).head?, isDigit b = false := fun b hb =>
    (endsLine_notDigit (endsLine_lineEnd b (List.mem_of_mem_head? hb))).1
  have hfirst : isSpace (digit (finish.hours / 10)) = false :=
    isDigit_notSpace (isDigit_digit (by have := finish.hours.isLt; omega))
  have hsecond : (32 :: (finish.bytes ++ lineEnd carriage)).dropWhile isSpace =
      finish.bytes ++ lineEnd carriage := by
    rw [List.dropWhile_cons_of_pos rfl]
    exact List.dropWhile_cons_of_neg (by simp [hfirst])
  unfold scanTimes
  rw [scanTime_bytes start hspace]
  show ((scanTime ((32 :: (finish.bytes ++ lineEnd carriage)).dropWhile isSpace)).bind _) = _
  rw [hsecond, scanTime_bytes finish hend]
  rfl

theorem step_noTimes {data : List Byte} (hpos : r.pos = 1)
    (h : scanTimes (data.takeWhile (· ≠ 0)) = none) : r.step data = r := by
  unfold step
  dsimp only
  rw [hpos, h]
  rfl

theorem step_digits (ends : List Byte) (hpos : r.pos = 1) (h : ∀ b ∈ digits, isDigit b = true)
    (hends : ∀ b ∈ ends, endsLine b = true) : r.step (digits ++ ends) = r := by
  refine step_noTimes hpos ?_
  rw [string_plain (fun b hb => isDigit_plain (h b hb)) hends, scanTimes_digits h hends]

theorem read_digits (hpos : r.pos = 1) (h : ∀ b ∈ digits, isDigit b = true) :
    read r (digits ++ lineEnd carriage ++ rest) = read r rest := by
  have hplain : ∀ {l : List Byte}, (∀ b ∈ l, isDigit b = true) → Plain l :=
    fun h b hb => isDigit_plain (h b hb)
  induction hsize : digits.length using Nat.strong_induction_on generalizing digits carriage with
  | _ size ih =>
    by_cases hlong : 79 ≤ digits.length
    · have hstep := step_digits [] hpos
        (fun b hb => h b (List.mem_of_mem_take (i := 79) hb)) fun b hb => absurd hb List.not_mem_nil
      rw [List.append_nil] at hstep
      rw [read_take (hplain h) hlong, hstep]
      exact ih (digits.drop 79).length (by rw [List.length_drop]; omega)
        (fun b hb => h b (List.mem_of_mem_drop hb)) rfl
    · rcases short_or_return carriage hlong with hshort | ⟨rfl, hfull⟩
      · rw [read_short hshort (hplain h), step_digits _ hpos h endsLine_lineEnd]
      · rw [read_return (hplain h) hfull, step_digits [13] hpos h (by decide)]
        exact ih 0 (by omega) (fun b hb => absurd hb List.not_mem_nil) rfl

theorem read_number (hpos : r.pos = 0) (hne : digits ≠ []) (h : ∀ b ∈ digits, isDigit b = true) :
    read r (digits ++ lineEnd carriage ++ rest) = read { r with pos := 1 } rest := by
  have hplain : Plain digits := fun b hb => isDigit_plain (h b hb)
  have hstep : ∀ l ends : List Byte, l ≠ [] → Plain l →
      r.step (l ++ ends) = { r with pos := 1 } := by
    intro l ends hne hl
    unfold step
    rw [hpos, isBlank_plain hl hne]
    rfl
  by_cases hlong : 79 ≤ digits.length
  · have hfront := hstep _ [] (take_ne_nil hlong) (hplain.take 79)
    rw [List.append_nil] at hfront
    rw [read_take hplain hlong, hfront]
    exact read_digits rfl fun b hb => h b (List.mem_of_mem_drop hb)
  · rcases short_or_return carriage hlong with hshort | ⟨rfl, hfull⟩
    · rw [read_short hshort hplain, hstep _ _ hne hplain]
    · rw [read_return hplain hfull, hstep _ _ hne hplain]
      exact read_digits rfl fun b hb => absurd hb List.not_mem_nil

end

/-! ## Blocks -/

/-- No line but the last splits. -/
def Block.Whole (block : Block) : Prop := ∀ line ∈ block.lines, ¬ Splits line.text line.carriage

section

variable {r : Reader} {rest : List Byte} {passed : List Entry} {block : Block} {lines : List Line}

theorem Time.total_lt (t : Time) : t.total < 2 ^ 64 := by
  have hh := t.hours.isLt
  have hm := t.minutes.isLt
  have hs := t.seconds.isLt
  have hms := t.millis.isLt
  unfold Time.total
  omega

theorem Time.plain_bytes (t : Time) : Plain t.bytes := by
  have hh := t.hours.isLt
  have hm := t.minutes.isLt
  have hs := t.seconds.isLt
  have hms := t.millis.isLt
  have hdigit : ∀ n : Nat, n < 10 → digit n ≠ 0 ∧ digit n ≠ 10 ∧ digit n ≠ 13 :=
    fun n hn => isDigit_plain (isDigit_digit hn)
  unfold Plain Time.bytes
  simp only [List.forall_mem_cons, List.not_mem_nil, false_imp_iff, implies_true, and_true]
  refine ⟨hdigit _ (by omega), hdigit _ (by omega), by decide, hdigit _ (by omega),
    hdigit _ (by omega), by decide, hdigit _ (by omega), hdigit _ (by omega), by decide,
    hdigit _ (by omega), hdigit _ (by omega), hdigit _ (by omega)⟩

theorem read_times (hpos : r.pos = 1) (block : Block) :
    read r (block.start.bytes ++ ([32, 45, 45, 62, 32] ++ (block.finish.bytes ++
        (lineEnd block.carriage ++ rest)))) =
      read { r with pts := block.entry.pts, duration := block.entry.duration, pos := 2 } rest := by
  have hplain : Plain (block.start.bytes ++ ([32, 45, 45, 62, 32] ++ block.finish.bytes)) := by
    intro b hb
    rcases List.mem_append.mp hb with hb | hb
    · exact block.start.plain_bytes b hb
    · rcases List.mem_append.mp hb with hb | hb
      · have harrow : ∀ b ∈ ([32, 45, 45, 62, 32] : List Byte), b ≠ 0 ∧ b ≠ 10 ∧ b ≠ 13 := by decide
        exact harrow b hb
      · exact block.finish.plain_bytes b hb
  have hshort : (block.start.bytes ++ ([32, 45, 45, 62, 32] ++ block.finish.bytes) ++
      (if block.carriage then [13] else [])).length < 79 := by
    cases block.carriage <;> simp [Time.bytes]
  have hscan := @scanTimes_bytes block.carriage block.start block.finish
  have htotal : ∀ t : Time, (⟨t.hours, t.minutes, t.seconds, t.millis⟩ : ScannedTime).total =
      (t.total : Int) := by
    intro t
    simp [ScannedTime.total, Time.total]
  have hduration : BitVec.ofNat 64 block.finish.total - BitVec.ofNat 64 block.start.total =
      BitVec.ofNat 64 (block.finish.total - block.start.total) := by
    have hordered := block.ordered
    have hstart := block.start.total_lt
    have hfinish := block.finish.total_lt
    apply BitVec.eq_of_toNat_eq
    rw [BitVec.toNat_sub, BitVec.toNat_ofNat, BitVec.toNat_ofNat, BitVec.toNat_ofNat]
    omega
  have hstep : r.step (block.start.bytes ++ ([32, 45, 45, 62, 32] ++ block.finish.bytes) ++
      lineEnd block.carriage) =
        { r with pts := block.entry.pts, duration := block.entry.duration, pos := 2 } := by
    unfold step
    rw [string_plain hplain endsLine_lineEnd, List.append_assoc, List.append_assoc, hpos]
    dsimp only
    rw [hscan]
    dsimp only
    rw [if_neg (by decide), if_pos rfl, htotal, htotal, BitVec.ofInt_natCast,
      BitVec.ofInt_natCast, hduration]
    rfl
  have hread := @read_short r _ rest block.carriage hshort hplain
  rw [hstep] at hread
  simpa only [List.append_assoc] using hread

theorem read_lines (hpos : r.pos = 2)
    (hwhole : ∀ line ∈ lines, ¬ Splits line.text line.carriage) :
    ∃ text, read r (lines.flatMap Line.bytes ++ rest) = read { r with text := text } rest ∧
      text.getD [] = r.text.getD [] ++ lines.flatMap Line.bytes := by
  induction lines generalizing r with
  | nil => exact ⟨r.text, rfl, (List.append_nil _).symm⟩
  | cons line lines ih =>
    obtain ⟨hline, hlines⟩ := List.forall_mem_cons.mp hwhole
    have hfirst := @read_line r line.text (lines.flatMap Line.bytes ++ rest) line.carriage hpos
      line.plain hline
    obtain ⟨text, hrest, htext⟩ := ih
      (r := { r with text := some (r.text.getD [] ++ line.bytes) }) hpos hlines
    refine ⟨text, ?_, ?_⟩
    · rw [List.flatMap_cons, List.append_assoc]
      exact hfirst.trans hrest
    · rw [htext, List.flatMap_cons, ← List.append_assoc]
      rfl

theorem read_lines_split (hpos : r.pos = 2) (hvisible : ∀ line ∈ lines, line.text ≠ [])
    (hsplit : ∃ line ∈ lines, Splits line.text line.carriage) :
    ∃ r' rest' text, read r (lines.flatMap Line.bytes ++ rest) = read r' rest' ∧
      r'.passed = r.passed ++ [⟨text, r.pts, r.duration⟩] ∧
      text.length < (r.text.getD [] ++ lines.flatMap Line.bytes).length := by
  induction lines generalizing r with
  | nil =>
    obtain ⟨line, hline, -⟩ := hsplit
    exact absurd hline List.not_mem_nil
  | cons line lines ih =>
    obtain ⟨hline, hlines⟩ := List.forall_mem_cons.mp hvisible
    have hcut : (line :: lines).flatMap Line.bytes ++ rest =
        line.text ++ lineEnd line.carriage ++ (lines.flatMap Line.bytes ++ rest) := by
      rw [List.flatMap_cons, List.append_assoc]
      rfl
    rw [hcut]
    by_cases hfirst : Splits line.text line.carriage
    · obtain ⟨ends, hends, hread⟩ := @read_split r line.text (lines.flatMap Line.bytes ++ rest)
        line.carriage hpos line.plain hfirst (.inl hline)
      refine ⟨_, _, strip (r.text.getD [] ++ (line.text ++ ends)), hread, rfl, ?_⟩
      have hend : 0 < (lineEnd line.carriage).length := by
        cases line.carriage <;> decide
      rw [strip_append hline (Plain.not_endsLine line.plain) hends, List.flatMap_cons]
      simp only [List.length_append, Line.bytes]
      omega
    · have hread := @read_line r line.text (lines.flatMap Line.bytes ++ rest) line.carriage hpos
        line.plain hfirst
      have hlater : ∃ line ∈ lines, Splits line.text line.carriage := by
        obtain ⟨other, hmem, hother⟩ := hsplit
        rcases List.mem_cons.mp hmem with rfl | hmem
        · exact absurd hother hfirst
        · exact ⟨other, hmem, hother⟩
      obtain ⟨r', rest', text, hrest, hpassed, hshort⟩ := ih
        (r := { r with text := some (r.text.getD [] ++ line.bytes) }) hpos hlines hlater
      refine ⟨r', rest', text, hread.trans hrest, hpassed, ?_⟩
      rw [List.flatMap_cons, ← List.append_assoc]
      exact hshort

/-- Between blocks. -/
structure Idle (r : Reader) (passed : List Entry) : Prop where
  pos : r.pos = 0
  text : r.text = none
  passed : r.passed = passed

/-- In a block, all of which has been read. -/
structure Ready (block : Block) (r : Reader) (passed : List Entry) : Prop where
  pos : r.pos = 2
  text : ∃ text, r.text = some text ∧ strip text = block.text
  pts : r.pts = block.entry.pts
  duration : r.duration = block.entry.duration
  passed : r.passed = passed

/-- In a block, what is in front of its last line has been read. -/
structure Begun (block : Block) (r : Reader) (passed : List Entry) : Prop where
  pos : r.pos = 2
  text : r.text.getD [] = block.lines.flatMap Line.bytes
  pts : r.pts = block.entry.pts
  duration : r.duration = block.entry.duration
  passed : r.passed = passed

theorem read_header (h : Idle r passed) : ∃ u,
    read r (block.front ++ rest) = read u (block.lines.flatMap Line.bytes ++ rest) ∧ u.pos = 2 ∧
      u.text = none ∧ u.pts = block.entry.pts ∧ u.duration = block.entry.duration ∧
      u.passed = passed := by
  have hnumber := @read_number r block.number.text (block.start.bytes ++ ([32, 45, 45, 62, 32] ++
    (block.finish.bytes ++ (lineEnd block.carriage ++ (block.lines.flatMap Line.bytes ++ rest)))))
    block.number.carriage h.pos block.digits.1 block.digits.2
  have htimes := @read_times { r with pos := 1 } (block.lines.flatMap Line.bytes ++ rest) rfl block
  refine ⟨{ r with pts := block.entry.pts, duration := block.entry.duration, pos := 2 }, ?_, rfl,
    h.text, rfl, rfl, h.passed⟩
  rw [← htimes, ← hnumber]
  simp only [Block.front, Line.bytes, List.append_assoc]

theorem read_front (h : Idle r passed) (hwhole : block.Whole) :
    ∃ u, read r (block.front ++ rest) = read u rest ∧ Begun block u passed := by
  obtain ⟨u, hheader, hpos, hnone, hpts, hduration, hpassed⟩ := @read_header r rest passed block h
  obtain ⟨text, hlines, htext⟩ := @read_lines u rest block.lines hpos hwhole
  refine ⟨_, hheader.trans hlines, hpos, ?_, hpts, hduration, hpassed⟩
  rw [hnone] at htext
  exact htext

theorem read_front_split (h : Idle r passed) (hsplit : ¬ block.Whole) :
    ∃ u rest' wrong, read r (block.front ++ rest) = read u rest' ∧ u.passed = passed ++ [wrong] ∧
      wrong ≠ block.entry := by
  obtain ⟨u, hheader, hpos, hnone, -, -, hpassed⟩ := @read_header r rest passed block h
  have hvisible : ∀ line ∈ block.lines, line.text ≠ [] := fun line hline =>
    block.visible line (List.mem_append_left _ hline)
  have hexists : ∃ line ∈ block.lines, Splits line.text line.carriage := by
    unfold Block.Whole at hsplit
    push Not at hsplit
    exact hsplit
  obtain ⟨u', rest', text, hlines, hwrong, hshort⟩ :=
    @read_lines_split u rest block.lines hpos hvisible hexists
  refine ⟨u', rest', _, hheader.trans hlines, hpassed ▸ hwrong, fun heq => ?_⟩
  have htext : text = block.text := congrArg Entry.text heq
  rw [hnone, htext] at hshort
  unfold Block.text at hshort
  simp only [Option.getD_none, List.nil_append, List.length_append] at hshort
  omega

theorem read_last (h : Begun block r passed) : ∃ u,
    read r (block.last.bytes ++ rest) = read u rest ∧
      (Idle u (passed ++ [block.entry]) ∨ Ready block u passed) := by
  have hvisible := block.visible block.last (by simp)
  have hlast : Plain block.last.text := block.last.plain
  have hstrip : ∀ ends, (∀ b ∈ ends, endsLine b = true) →
      strip (r.text.getD [] ++ (block.last.text ++ ends)) = block.text := fun ends hends => by
    rw [strip_append hvisible hlast.not_endsLine hends, h.text]
    rfl
  by_cases hsplit : Splits block.last.text block.last.carriage
  · obtain ⟨ends, hends, hread⟩ := @read_split r block.last.text rest block.last.carriage h.pos hlast
      hsplit (.inl hvisible)
    refine ⟨_, hread, .inl ⟨rfl, rfl, ?_⟩⟩
    show r.passed ++ [⟨strip _, r.pts, r.duration⟩] = _
    rw [hstrip ends hends, h.passed, h.pts, h.duration]
    rfl
  · exact ⟨_, @read_line r block.last.text rest block.last.carriage h.pos hlast hsplit,
      .inr ⟨h.pos, ⟨_, rfl, hstrip _ endsLine_lineEnd⟩, h.pts, h.duration, h.passed⟩⟩

theorem read_unended {text : List Byte} (hpos : r.pos = 2) (h : Plain text) (hne : text ≠ []) :
    read r text = { r with text := some (r.text.getD [] ++ text) } := by
  induction hsize : text.length using Nat.strong_induction_on generalizing text r with
  | _ size ih =>
    by_cases hlong : 79 ≤ text.length
    · have htake : (text.take 79).length = 79 := List.length_take_of_le hlong
      have hfull := @read_full r (text.take 79) (text.drop 79)
        (fun b hb => (h.take 79 b hb).2.1) htake
      rw [List.take_append_drop, step_take hpos h hlong] at hfull
      rw [hfull]
      by_cases hdrop : text.drop 79 = []
      · have hall : text.take 79 = text := by
          have hcut := List.take_append_drop 79 text
          rwa [hdrop, List.append_nil] at hcut
        rw [hdrop, hall]
        rfl
      · rw [ih (text.drop 79).length (by rw [List.length_drop]; omega) (r := { r with text := some _ })
          hpos (h.drop 79) hdrop rfl]
        simp only [Option.getD_some, List.append_assoc, List.take_append_drop]
    · have hstep := step_text [] hpos h hne fun b hb => absurd hb List.not_mem_nil
      rw [List.append_nil] at hstep
      unfold read
      rw [chunks_end (fun b hb => (h b hb).2.1) (Nat.lt_of_not_le hlong), if_neg hne]
      exact hstep

end

/-! ## Files -/

/-- A list goes another way than one that is expected. -/
def Diverges (expected passed : List Entry) : Prop :=
  ∃ common wrong right rest, common ++ [wrong] <+: passed ∧ expected = common ++ right :: rest ∧
    wrong ≠ right

section

variable {r : Reader} {rest : List Byte} {passed expected : List Entry} {block : Block}
  {closed : List (Block × Bool × List Bool)}

theorem Diverges.ne (h : Diverges expected passed) : passed ≠ expected := by
  obtain ⟨common, wrong, right, rest, ⟨tail, rfl⟩, rfl, hne⟩ := h
  intro heq
  rw [List.append_assoc] at heq
  exact hne (List.cons.inj (List.append_cancel_left heq)).1

theorem Diverges.mono {more : List Entry} (h : Diverges expected passed) (hmore : passed <+: more) :
    Diverges expected more := by
  obtain ⟨common, wrong, right, rest, hpassed, hexpected, hne⟩ := h
  exact ⟨common, wrong, right, rest, hpassed.trans hmore, hexpected, hne⟩

theorem read_empty (h : Idle r passed) (carriage : Bool) :
    read r (lineEnd carriage ++ rest) = read r rest := by
  have hstep : r.step (lineEnd carriage) = r := by
    unfold step
    rw [h.pos, isBlank_lineEnd]
    rfl
  rw [read_lineEnd, hstep]

theorem read_emptyLines (h : Idle r passed) (carriages : List Bool) :
    read r (File.emptyLines carriages ++ rest) = read r rest := by
  induction carriages with
  | nil => rfl
  | cons carriage carriages ih =>
    unfold File.emptyLines at ih ⊢
    rw [List.flatMap_cons, List.append_assoc, read_empty h, ih]

theorem read_closing (h : Idle r (passed ++ [block.entry]) ∨ Ready block r passed)
    (carriage : Bool) (carriages : List Bool) : ∃ u,
    read r (File.emptyLines (carriage :: carriages) ++ rest) = read u rest ∧
      Idle u (passed ++ [block.entry]) := by
  rcases h with hidle | hready
  · exact ⟨r, read_emptyLines hidle _, hidle⟩
  · obtain ⟨text, htext, hstrip⟩ := hready.text
    have hread := @read_lineEnd r (File.emptyLines carriages ++ rest) carriage
    rw [step_blank hready.pos isBlank_lineEnd, htext, Option.getD_some] at hread
    have hidle : Idle (r.passOn text) (passed ++ [block.entry]) := by
      refine ⟨rfl, rfl, ?_⟩
      show r.passed ++ [⟨strip text, r.pts, r.duration⟩] = _
      rw [hstrip, hready.passed, hready.pts, hready.duration]
      rfl
    refine ⟨_, ?_, hidle⟩
    unfold File.emptyLines at hread ⊢
    rw [List.flatMap_cons, List.append_assoc, hread]
    exact read_emptyLines hidle carriages

/-- The bytes of blocks that are closed. -/
def closedBytes (closed : List (Block × Bool × List Bool)) : List Byte :=
  closed.flatMap fun (block, carriage, carriages) =>
    block.front ++ block.last.bytes ++ File.emptyLines (carriage :: carriages)

theorem read_closed (h : Idle r passed) :
    ((∀ b ∈ closed, b.1.Whole) → ∃ u, read r (closedBytes closed ++ rest) = read u rest ∧
      Idle u (passed ++ closed.map fun b => b.1.entry)) ∧
    ((∃ b ∈ closed, ¬ b.1.Whole) → ∃ u rest', read r (closedBytes closed ++ rest) = read u rest' ∧
      Diverges (passed ++ closed.map fun b => b.1.entry) u.passed) := by
  induction closed generalizing r passed with
  | nil =>
    refine ⟨fun _ => ⟨r, rfl, by simpa using h⟩, ?_⟩
    rintro ⟨b, hb, -⟩
    exact absurd hb List.not_mem_nil
  | cons first closed ih =>
    obtain ⟨block, carriage, carriages⟩ := first
    have hcut : closedBytes ((block, carriage, carriages) :: closed) ++ rest =
        block.front ++ (block.last.bytes ++ (File.emptyLines (carriage :: carriages) ++
          (closedBytes closed ++ rest))) := by
      unfold closedBytes
      rw [List.flatMap_cons]
      simp only [List.append_assoc]
    have hentries : passed ++ ((block, carriage, carriages) :: closed).map (fun b => b.1.entry) =
        passed ++ [block.entry] ++ closed.map fun b => b.1.entry := by
      rw [List.map_cons, List.append_assoc]
      rfl
    rw [hcut, hentries]
    by_cases hwhole : block.Whole
    · obtain ⟨u, hfront, hbegun⟩ := @read_front r (block.last.bytes ++
        (File.emptyLines (carriage :: carriages) ++ (closedBytes closed ++ rest))) passed block h hwhole
      obtain ⟨v, hlast, hend⟩ := @read_last u (File.emptyLines (carriage :: carriages) ++
        (closedBytes closed ++ rest)) passed block hbegun
      obtain ⟨w, hclosing, hidle⟩ :=
        @read_closing v (closedBytes closed ++ rest) passed block hend carriage carriages
      obtain ⟨hgood, hbad⟩ := ih hidle
      refine ⟨fun hall => ?_, fun hsome => ?_⟩
      · obtain ⟨x, hrest, hx⟩ := hgood (List.forall_mem_cons.mp hall).2
        exact ⟨x, ((hfront.trans hlast).trans hclosing).trans hrest, hx⟩
      · have hlater : ∃ b ∈ closed, ¬ b.1.Whole := by
          obtain ⟨b, hb, hsplit⟩ := hsome
          rcases List.mem_cons.mp hb with rfl | hb
          · exact absurd hwhole hsplit
          · exact ⟨b, hb, hsplit⟩
        obtain ⟨x, rest', hrest, hx⟩ := hbad hlater
        exact ⟨x, rest', ((hfront.trans hlast).trans hclosing).trans hrest, hx⟩
    · refine ⟨fun hall => absurd (List.forall_mem_cons.mp hall).1 hwhole, fun _ => ?_⟩
      obtain ⟨u, rest', wrong, hfront, hwrong, hne⟩ := @read_front_split r (block.last.bytes ++
        (File.emptyLines (carriage :: carriages) ++ (closedBytes closed ++ rest))) passed block h hwhole
      refine ⟨u, rest', hfront, passed, wrong, block.entry, closed.map fun b => b.1.entry, ?_, ?_, hne⟩
      · exact hwrong ▸ List.prefix_rfl
      · rw [List.append_assoc]
        rfl

theorem finish_ready (h : Ready block r passed) : r.finish.passed = passed ++ [block.entry] := by
  obtain ⟨text, htext, hstrip⟩ := h.text
  unfold finish
  rw [htext]
  show r.passed ++ [⟨strip text, r.pts, r.duration⟩] = _
  rw [hstrip, h.passed, h.pts, h.duration]
  rfl

theorem finish_idle (h : Idle r passed) : r.finish.passed = passed := by
  unfold finish
  rw [h.text]
  exact h.passed

theorem read_final (h : Idle r passed) (ended : Bool) :
    (block.Whole → (read r (block.front ++
        if ended then block.last.bytes else block.last.text)).finish.passed =
      passed ++ [block.entry]) ∧
    (¬ block.Whole → Diverges (passed ++ [block.entry]) (read r (block.front ++
        if ended then block.last.bytes else block.last.text)).finish.passed) := by
  refine ⟨fun hwhole => ?_, fun hsplit => ?_⟩
  · obtain ⟨u, hfront, hbegun⟩ := @read_front r (if ended then block.last.bytes else block.last.text)
      passed block h hwhole
    rw [hfront]
    cases ended with
    | true =>
      obtain ⟨v, hlast, hend⟩ := @read_last u [] passed block hbegun
      have hread : read u block.last.bytes = v := by
        rw [List.append_nil] at hlast
        exact hlast
      show (read u block.last.bytes).finish.passed = _
      rw [hread]
      rcases hend with hidle | hready
      · exact finish_idle hidle
      · exact finish_ready hready
    | false =>
      have hvisible := block.visible block.last (by simp)
      have hlast : Plain block.last.text := block.last.plain
      have hstrip := @strip_append (u.text.getD []) block.last.text [] hvisible hlast.not_endsLine
        fun b hb => absurd hb List.not_mem_nil
      rw [List.append_nil, hbegun.text] at hstrip
      show (read u block.last.text).finish.passed = _
      rw [read_unended hbegun.pos hlast hvisible]
      exact finish_ready ⟨hbegun.pos, ⟨_, rfl, by rw [hbegun.text]; exact hstrip⟩, hbegun.pts,
        hbegun.duration, hbegun.passed⟩
  · obtain ⟨u, rest', wrong, hfront, hwrong, hne⟩ := @read_front_split r
      (if ended then block.last.bytes else block.last.text) passed block h hsplit
    rw [hfront]
    have hstays : u.passed <+: (read u rest').finish.passed :=
      (passed_foldl _ u).trans (passed_finish _)
    exact ⟨passed, wrong, block.entry, [], hwrong ▸ hstays, rfl, hne⟩

end

theorem idle_start : Idle start [] := ⟨rfl, rfl, rfl⟩

/-- The bytes behind the blocks that are closed. -/
def File.finalBytes (file : File) : List Byte :=
  file.final.elim [] fun (block, ended) =>
    block.front ++ if ended then block.last.bytes else block.last.text

theorem srtSubtitleThread_bytes (file : File) : srtSubtitleThread file.bytes =
    (read start (closedBytes file.closed ++ file.finalBytes)).finish.passed := by
  show (read start (File.emptyLines file.leading ++
    (closedBytes file.closed ++ file.finalBytes))).finish.passed = _
  rw [read_emptyLines idle_start]

theorem File.entries_eq (file : File) : file.entries =
    file.closed.map (fun b => b.1.entry) ++ (file.final.map fun b => b.1.entry).toList := by
  unfold File.entries File.blocks
  rw [List.map_append, List.map_map]
  cases file.final <;> rfl

theorem File.whole_iff (file : File) : (∀ block ∈ file.blocks, block.Whole) ↔
    (∀ b ∈ file.closed, b.1.Whole) ∧ ∀ b ∈ file.final, b.1.Whole := by
  unfold File.blocks
  simp only [List.mem_append, List.mem_map, Option.mem_toList, Option.mem_def, Option.map_eq_some_iff]
  constructor
  · intro h
    exact ⟨fun b hb => h b.1 (.inl ⟨b, hb, rfl⟩), fun b hb => h b.1 (.inr ⟨b, hb, rfl⟩)⟩
  · rintro ⟨hclosed, hfinal⟩ block (⟨b, hb, rfl⟩ | ⟨b, hb, rfl⟩)
    · exact hclosed b hb
    · exact hfinal b hb

theorem srtSubtitleThread_whole (file : File) (h : ∀ block ∈ file.blocks, block.Whole) :
    srtSubtitleThread file.bytes = file.entries := by
  obtain ⟨hclosed, hfinal⟩ := file.whole_iff.mp h
  obtain ⟨u, hread, hidle⟩ :=
    (@read_closed start file.finalBytes [] file.closed idle_start).1 hclosed
  rw [srtSubtitleThread_bytes, hread, file.entries_eq]
  unfold File.finalBytes
  cases hlast : file.final with
  | none => exact finish_idle hidle |>.trans (List.append_nil _).symm
  | some last =>
    obtain ⟨block, ended⟩ := last
    exact (read_final hidle ended).1 (hfinal _ hlast)

theorem srtSubtitleThread_split (file : File) (h : ¬ ∀ block ∈ file.blocks, block.Whole) :
    Diverges file.entries (srtSubtitleThread file.bytes) := by
  rw [srtSubtitleThread_bytes, file.entries_eq]
  obtain ⟨hgood, hbad⟩ := @read_closed start file.finalBytes [] file.closed idle_start
  by_cases hclosed : ∀ b ∈ file.closed, b.1.Whole
  · obtain ⟨u, hread, hidle⟩ := hgood hclosed
    have hfinal : ∃ b ∈ file.final, ¬ b.1.Whole := by
      by_contra hnone
      push Not at hnone
      exact h (file.whole_iff.mpr ⟨hclosed, hnone⟩)
    obtain ⟨⟨block, ended⟩, hlast, hsplit⟩ := hfinal
    have hsome : file.final = some (block, ended) := hlast
    rw [hread]
    unfold File.finalBytes
    rw [hsome]
    exact (read_final hidle ended).2 hsplit
  · push Not at hclosed
    obtain ⟨u, rest', hread, hdiverges⟩ := hbad hclosed
    rw [hread]
    -- what is expected behind the closed blocks makes no difference
    obtain ⟨common, wrong, right, rest, hpassed, hexpected, hne⟩ :=
      hdiverges.mono ((passed_foldl _ u).trans (passed_finish _))
    refine ⟨common, wrong, right, rest ++ (file.final.map fun b => b.1.entry).toList, hpassed, ?_, hne⟩
    rw [List.nil_append] at hexpected
    rw [hexpected, List.append_assoc, List.cons_append]

/-- The entries of a file are passed on, exactly if no line of text that is not the last of
its block splits. -/
theorem srtSubtitleThread_entries_iff (file : File) :
    srtSubtitleThread file.bytes = file.entries ↔ ∀ block ∈ file.blocks, block.Whole := by
  constructor
  · intro heq
    by_contra hsplit
    exact (srtSubtitleThread_split file hsplit).ne heq
  · intro hwhole
    exact srtSubtitleThread_whole file hwhole

/-- Two lines of text, the first of which is as long as a piece. -/
def fullLine : Block where
  number := ⟨[49], false, by decide⟩
  start := ⟨0, 0, 1, 0⟩
  finish := ⟨0, 0, 2, 0⟩
  carriage := false
  lines := [⟨List.replicate 79 97, false, by simp⟩]
  last := ⟨[98], false, by decide⟩
  digits := by decide
  ordered := by decide
  visible := by
    intro line hline
    rcases List.mem_cons.mp hline with rfl | hline
    · exact List.cons_ne_nil _ _
    · obtain rfl := List.mem_singleton.mp hline
      exact List.cons_ne_nil _ _

/-- The entry of such a block is not what is passed on. -/
theorem fullLine_split : ∃ file : File, file.blocks = [fullLine] ∧
    srtSubtitleThread file.bytes ≠ file.entries := by
  refine ⟨⟨[], [(fullLine, false, [])], none⟩, rfl, ?_⟩
  refine (srtSubtitleThread_split _ fun hwhole => ?_).ne
  have hlength : (List.replicate 79 (97 : Byte)).length = 79 := List.length_replicate
  exact hwhole fullLine List.mem_cons_self _ List.mem_cons_self (.inl ⟨1, hlength⟩)

end Duckbox.Libeplayer3.Srt
