import Mathlib.Data.List.Basic

/-!
# Replacing what is found in a text

`replaced search rep text` has `rep` in place of each occurrence of `search` in `text`,
taken from left to right and not overlapping. A program that replaces the first
occurrence and looks again from the front of what it has written (`splice`) comes to the
same text, but only where the replacement cannot be part of an occurrence (`Fresh`):
`replaced_splice`.
-/

namespace Duckbox.Lib

variable {α : Type} [DecidableEq α]

/-! ## The first occurrence -/

/-- Where `search` is found first. -/
def firstAt (search : List α) : List α → Option Nat
  | [] => if search = [] then some 0 else none
  | a :: text => if search <+: a :: text then some 0 else (firstAt search text).map (· + 1)

variable {search rep text : List α} {n : Nat}

theorem prefix_of_firstAt : ∀ {text : List α} {n : Nat}, firstAt search text = some n →
    search <+: text.drop n
  | [], n, h => by
    unfold firstAt at h
    split at h
    next hempty => rw [hempty]; exact List.nil_prefix
    next => cases h
  | a :: text, n, h => by
    unfold firstAt at h
    split at h
    next hbegins =>
      obtain rfl := Option.some.inj h
      exact hbegins
    next =>
      obtain ⟨k, hk, rfl⟩ := Option.map_eq_some_iff.mp h
      show search <+: text.drop k
      exact prefix_of_firstAt hk

theorem not_prefix_of_firstAt : ∀ {text : List α} {n : Nat}, firstAt search text = some n →
    ∀ i < n, ¬ search <+: text.drop i
  | [], n, h, i, hi => by
    unfold firstAt at h
    split at h
    next =>
      obtain rfl := Option.some.inj h
      exact absurd hi (Nat.not_lt_zero i)
    next => cases h
  | a :: text, n, h, i, hi => by
    unfold firstAt at h
    split at h
    next =>
      obtain rfl := Option.some.inj h
      exact absurd hi (Nat.not_lt_zero i)
    next hnot =>
      obtain ⟨k, hk, rfl⟩ := Option.map_eq_some_iff.mp h
      cases i with
      | zero => exact hnot
      | succ i => exact not_prefix_of_firstAt hk i (by omega)

theorem not_prefix_of_firstAt_none : ∀ {text : List α}, firstAt search text = none →
    ∀ i < text.length, ¬ search <+: text.drop i
  | [], _, i, hi => absurd hi (Nat.not_lt_zero i)
  | a :: text, h, i, hi => by
    unfold firstAt at h
    split at h
    next => cases h
    next hnot =>
      cases i with
      | zero => exact hnot
      | succ i =>
        exact not_prefix_of_firstAt_none (Option.map_eq_none_iff.mp h) i (Nat.lt_of_succ_lt_succ hi)

theorem add_length_le_of_firstAt (hsearch : search ≠ []) (h : firstAt search text = some n) :
    n + search.length ≤ text.length := by
  have hlength := (prefix_of_firstAt h).length_le
  rw [List.length_drop] at hlength
  have hpos := List.length_pos_iff.mpr hsearch
  omega

/-! ## Every occurrence -/

/-- The text with its occurrences replaced, but for the first `k` places, which an
occurrence in front of them takes up. -/
def replacedFrom (search rep : List α) : Nat → List α → List α
  | _, [] => []
  | k + 1, _ :: text => replacedFrom search rep k text
  | 0, a :: text =>
    if search <+: a :: text then rep ++ replacedFrom search rep (search.length - 1) text
    else a :: replacedFrom search rep 0 text

/-- The text with each occurrence replaced. -/
def replaced (search rep text : List α) : List α := replacedFrom search rep 0 text

@[simp] theorem replaced_nil : replaced search rep [] = [] := rfl

theorem replacedFrom_eq_drop : ∀ (k : Nat) (text : List α),
    replacedFrom search rep k text = replaced search rep (text.drop k)
  | 0, _ => rfl
  | _ + 1, [] => rfl
  | k + 1, _ :: text => replacedFrom_eq_drop k text

theorem replaced_of_begins (hsearch : search ≠ []) (h : search <+: text) :
    replaced search rep text = rep ++ replaced search rep (text.drop search.length) := by
  obtain ⟨c, search', rfl⟩ := List.exists_cons_of_ne_nil hsearch
  cases text with
  | nil => exact absurd (List.prefix_nil.mp h) hsearch
  | cons a text =>
    conv => lhs; unfold replaced replacedFrom
    rw [if_pos h, replacedFrom_eq_drop]
    rfl

theorem replaced_of_not_begins {a : α} (h : ¬ search <+: a :: text) :
    replaced search rep (a :: text) = a :: replaced search rep text := by
  conv => lhs; unfold replaced replacedFrom
  rw [if_neg h]
  rfl

theorem replaced_append : ∀ {d l : List α},
    (∀ i < d.length, ¬ search <+: (d ++ l).drop i) →
    replaced search rep (d ++ l) = d ++ replaced search rep l
  | [], _, _ => rfl
  | a :: d, l, h => by
    have hhere : ¬ search <+: a :: (d ++ l) := h 0 (Nat.zero_lt_succ _)
    have hrest : ∀ i < d.length, ¬ search <+: (d ++ l).drop i :=
      fun i hi => h (i + 1) (Nat.succ_lt_succ hi)
    rw [List.cons_append, replaced_of_not_begins hhere, replaced_append hrest]
    rfl

theorem replaced_of_firstAt_none (h : firstAt search text = none) :
    replaced search rep text = text := by
  have hnone : ∀ i < text.length, ¬ search <+: (text ++ []).drop i := by
    rw [List.append_nil]
    exact not_prefix_of_firstAt_none h
  have happend : replaced search rep (text ++ []) = text ++ replaced search rep [] :=
    replaced_append hnone
  rwa [List.append_nil, replaced_nil, List.append_nil] at happend

theorem replaced_of_firstAt (hsearch : search ≠ []) (h : firstAt search text = some n) :
    replaced search rep text =
      text.take n ++ rep ++ replaced search rep (text.drop (n + search.length)) := by
  have hnone : ∀ i < (text.take n).length, ¬ search <+: (text.take n ++ text.drop n).drop i := by
    rw [List.take_append_drop]
    intro i hi
    exact not_prefix_of_firstAt h i (Nat.lt_of_lt_of_le hi (List.length_take_le n text))
  have hbefore : replaced search rep (text.take n ++ text.drop n) =
      text.take n ++ replaced search rep (text.drop n) := replaced_append hnone
  rw [List.take_append_drop, replaced_of_begins hsearch (prefix_of_firstAt h), List.drop_drop]
    at hbefore
  rw [hbefore, List.append_assoc]

/-! ## Looking again from the front -/

/-- The text with the occurrence at `n` replaced. -/
def splice (search rep text : List α) (n : Nat) : List α :=
  text.take n ++ rep ++ text.drop (n + search.length)

/-- No occurrence can start in the replacement, or end in it; and where the replacement
is empty none can form across it. -/
def Fresh (search rep : List α) : Prop :=
  search ≠ [] ∧ (∀ a ∈ search.head?, a ∉ rep) ∧ (∀ a ∈ rep.head?, a ∉ search) ∧
    (rep = [] → search.length = 1)

instance (search rep : List α) : Decidable (Fresh search rep) :=
  inferInstanceAs (Decidable (_ ∧ _ ∧ _ ∧ _))

omit [DecidableEq α] in
theorem splice_getElem?_of_lt {j : Nat} (hn : n ≤ text.length) (hj : j < n) :
    (splice search rep text n)[j]? = text[j]? := by
  unfold splice
  rw [List.append_assoc, List.getElem?_append_left (by rw [List.length_take]; omega),
    List.getElem?_take_of_lt hj]

omit [DecidableEq α] in
theorem splice_getElem?_of_replacement {j : Nat} (hn : n ≤ text.length) (hj : j < rep.length) :
    (splice search rep text n)[n + j]? = rep[j]? := by
  have hfront : (text.take n).length = n := List.length_take_of_le hn
  unfold splice
  rw [List.append_assoc, List.getElem?_append_right (by omega), hfront, Nat.add_sub_cancel_left,
    List.getElem?_append_left hj]

/-- Nothing new is found in front of what follows the occurrence. -/
theorem not_prefix_splice (hfresh : Fresh search rep) (h : firstAt search text = some n) :
    ∀ i < n + rep.length, ¬ search <+: (splice search rep text n).drop i := by
  obtain ⟨hsearch, hstart, hend, hacross⟩ := hfresh
  have hn : n ≤ text.length := by
    have := add_length_le_of_firstAt hsearch h
    omega
  intro i hi hbegins
  -- what an occurrence at `i` would say of each place
  have hplace : ∀ j (hj : j < search.length),
      (splice search rep text n)[i + j]? = some search[j] := by
    intro j hj
    have := List.prefix_iff_getElem?.mp hbegins j hj
    rwa [List.getElem?_drop] at this
  have hpos := List.length_pos_iff.mpr hsearch
  rcases Nat.lt_or_ge i n with hbefore | hinside
  · rcases Nat.lt_or_ge n (i + search.length) with hover | hclear
    · -- it would go on into the replacement
      cases rep with
      | nil =>
        have := hacross rfl
        omega
      | cons b rep =>
        have hfirst : (splice search (b :: rep) text n)[n + 0]? = (b :: rep)[0]? :=
          splice_getElem?_of_replacement hn (Nat.zero_lt_succ _)
        have hsame := hplace (n - i) (by omega)
        rw [show i + (n - i) = n + 0 from by omega, hfirst] at hsame
        have hb : b = search[n - i] := Option.some.inj hsame
        refine hend b rfl ?_
        rw [hb]
        exact List.getElem_mem _
    · -- it would have been there before
      refine not_prefix_of_firstAt h i hbefore (List.prefix_iff_getElem?.mpr fun j hj => ?_)
      rw [List.getElem?_drop, ← hplace j hj, splice_getElem?_of_lt hn (by omega)]
  · -- it would start in the replacement
    have hfirst := hplace 0 hpos
    rw [show i + 0 = n + (i - n) from by omega,
      splice_getElem?_of_replacement hn (by omega)] at hfirst
    refine hstart search[0] ?_ (List.mem_of_getElem? hfirst)
    rw [List.head?_eq_getElem?, List.getElem?_eq_getElem hpos]
    exact rfl

theorem replaced_splice (hfresh : Fresh search rep) (h : firstAt search text = some n) :
    replaced search rep (splice search rep text n) = replaced search rep text := by
  have hn : n ≤ text.length := by
    have := add_length_le_of_firstAt hfresh.1 h
    omega
  have hfront : (text.take n ++ rep).length = n + rep.length := by
    rw [List.length_append, List.length_take_of_le hn]
  have hnone := not_prefix_splice hfresh h
  rw [← hfront] at hnone
  rw [replaced_of_firstAt hfresh.1 h]
  exact replaced_append hnone

/-! ## Lengths -/

theorem length_replacedFrom_le (hshrinks : rep.length ≤ search.length) (hsearch : search ≠ []) :
    ∀ (k : Nat) (text : List α), (replacedFrom search rep k text).length ≤ text.length - k
  | _, [] => Nat.zero_le _
  | k + 1, a :: text => by
    have := length_replacedFrom_le hshrinks hsearch k text
    rw [List.length_cons, Nat.add_sub_add_right]
    exact this
  | 0, a :: text => by
    unfold replacedFrom
    split
    next hbegins =>
      have hrest := length_replacedFrom_le hshrinks hsearch (search.length - 1) text
      have hfits := hbegins.length_le
      have hpos := List.length_pos_iff.mpr hsearch
      rw [List.length_append]
      rw [List.length_cons] at hfits ⊢
      omega
    next =>
      have hrest := length_replacedFrom_le hshrinks hsearch 0 text
      rw [List.length_cons, List.length_cons]
      omega

theorem length_replaced_le (hshrinks : rep.length ≤ search.length) (hsearch : search ≠ [])
    (text : List α) : (replaced search rep text).length ≤ text.length :=
  length_replacedFrom_le hshrinks hsearch 0 text

theorem le_length_replacedFrom (hgrows : search.length ≤ rep.length) (hsearch : search ≠ []) :
    ∀ (k : Nat) (text : List α), text.length - k ≤ (replacedFrom search rep k text).length
  | _, [] => by
    rw [List.length_nil, Nat.zero_sub]
    exact Nat.zero_le _
  | k + 1, a :: text => by
    have := le_length_replacedFrom hgrows hsearch k text
    rw [List.length_cons, Nat.add_sub_add_right]
    exact this
  | 0, a :: text => by
    unfold replacedFrom
    split
    next hbegins =>
      have hrest := le_length_replacedFrom hgrows hsearch (search.length - 1) text
      have hpos := List.length_pos_iff.mpr hsearch
      rw [List.length_append, List.length_cons]
      omega
    next =>
      have hrest := le_length_replacedFrom hgrows hsearch 0 text
      rw [List.length_cons, List.length_cons]
      omega

theorem le_length_replaced (hgrows : search.length ≤ rep.length) (hsearch : search ≠ [])
    (text : List α) : text.length ≤ (replaced search rep text).length :=
  le_length_replacedFrom hgrows hsearch 0 text

/-- Where a text and what it comes to are no longer than `limit`, so is what is between
them. -/
theorem length_splice_le {limit : Nat} (hfresh : Fresh search rep)
    (h : firstAt search text = some n) (htext : text.length ≤ limit)
    (hreplaced : (replaced search rep text).length ≤ limit) :
    (splice search rep text n).length ≤ limit := by
  rcases Nat.le_total rep.length search.length with hshrinks | hgrows
  · have hfits := add_length_le_of_firstAt hfresh.1 h
    unfold splice
    rw [List.length_append, List.length_append, List.length_take, List.length_drop]
    omega
  · rw [← replaced_splice hfresh h] at hreplaced
    exact Nat.le_trans (le_length_replaced hgrows hfresh.1 _) hreplaced

/-! ## A text that is cut -/

theorem eq_nil_of_replacedFrom_append (hsearch : search ≠ []) (hrep : rep ≠ [])
    (hend : ∀ a ∈ rep.head?, a ∉ search) :
    ∀ (k : Nat) {u v : List α}, k ≤ u.length →
      replacedFrom search rep k u = replacedFrom search rep k (u ++ v) → v = []
  | k + 1, [], _, hk, _ => absurd hk (Nat.not_succ_le_zero k)
  | 0, [], [], _, _ => rfl
  | 0, [], b :: v, _, h => by
    rw [List.nil_append] at h
    unfold replacedFrom at h
    split at h
    next => exact absurd (List.append_eq_nil_iff.mp h.symm).1 hrep
    next => cases h
  | k + 1, _ :: u, v, hk, h =>
    eq_nil_of_replacedFrom_append hsearch hrep hend k (Nat.le_of_succ_le_succ hk) h
  | 0, a :: u, v, _, h => by
    rw [List.cons_append] at h
    unfold replacedFrom at h
    by_cases hwhole : search <+: a :: (u ++ v)
    · by_cases hhere : search <+: a :: u
      · rw [if_pos hhere, if_pos hwhole] at h
        have hfits := hhere.length_le
        rw [List.length_cons] at hfits
        exact eq_nil_of_replacedFrom_append hsearch hrep hend _ (by omega)
          (List.append_cancel_left h)
      · -- an occurrence that the cut goes through
        rw [if_neg hhere, if_pos hwhole] at h
        obtain ⟨b, rep', rfl⟩ := List.exists_cons_of_ne_nil hrep
        obtain ⟨c, search', rfl⟩ := List.exists_cons_of_ne_nil hsearch
        obtain ⟨rfl, -⟩ := List.cons_prefix_cons.mp hwhole
        obtain ⟨rfl, -⟩ := List.cons.inj h
        exact absurd List.mem_cons_self (hend _ rfl)
    · have hhere : ¬ search <+: a :: u := fun hbegins =>
        hwhole (hbegins.trans (List.prefix_append (a :: u) v))
      rw [if_neg hhere, if_neg hwhole] at h
      exact eq_nil_of_replacedFrom_append hsearch hrep hend 0 (Nat.zero_le _)
        (List.cons.inj h).2

theorem replaced_take_eq_iff (hfresh : Fresh search rep) (hrep : rep ≠ []) :
    replaced search rep (text.take n) = replaced search rep text ↔ text.length ≤ n := by
  constructor
  · intro h
    conv at h => rhs; rw [← List.take_append_drop n text]
    have hcut := eq_nil_of_replacedFrom_append hfresh.1 hrep hfresh.2.2.1 0 (Nat.zero_le _) h
    exact List.drop_eq_nil_iff.mp hcut
  · intro h
    rw [List.take_of_length_le h]

/-! ## A single symbol -/

theorem replaced_singleton (c : α) (rep : List α) : ∀ (text : List α),
    replaced [c] rep text = text.flatMap fun a => if a = c then rep else [a]
  | [] => rfl
  | a :: text => by
    rw [List.flatMap_cons, ← replaced_singleton c rep text]
    by_cases h : a = c
    · subst h
      rw [replaced_of_begins (by simp) (by simp), if_pos rfl]
      rfl
    · rw [replaced_of_not_begins (by simpa using fun h' => h h'.symm), if_neg h]
      rfl

theorem replaced_singleton_nil (c : α) (text : List α) :
    replaced [c] [] text = text.filter (· ≠ c) := by
  rw [replaced_singleton]
  induction text with
  | nil => rfl
  | cons a text ih =>
    rw [List.flatMap_cons, ih]
    by_cases h : a = c
    · simp [h]
    · simp [h]

end Duckbox.Lib
