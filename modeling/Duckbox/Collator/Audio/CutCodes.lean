import Duckbox.Collator.Audio.PesAudio
import Mathlib.Data.List.DropRight

/-!
# Start codes in a stream that is cut

Looking for a start code `00 00 01 c` in chunk after chunk, the audio collator goes through
the inside of a chunk with one search and carries up to three bytes over its end. Byte by
byte, that comes to `Look`: how much of a code has been seen, and whether it has been
carried over an end since. Two things are lost that way: one zero that is carried is still
one when another follows, and `00 00 01` is not carried unless its zeros were.

> `scan_sound`, `scan_complete`: what is found are the codes that are not lost (`Caught`),
> the first of them.
-/

namespace Duckbox.Collator.Audio

/-- A byte, or the end of a chunk. -/
abbrev Symbol := Option Byte

/-- How much of a start code has been seen, and whether it has been carried over the end of
a chunk. -/
structure Look where
  carried : Bool
  seen : TrailingStartCode
deriving DecidableEq

variable (ignored : Byte → Bool)

namespace Look

/-- With the next byte, `none` where that completes a code. -/
def byte (q : Look) (b : Byte) : Option Look :=
  match q.seen with
  | .none => some ⟨false, if b = 0 then .zero else .none⟩
  | .zero =>
    if b = 0 then some ⟨q.carried, if q.carried then .zero else .zeroZero⟩
    else some ⟨false, .none⟩
  | .zeroZero =>
    if b = 1 then some ⟨q.carried, .zeroZeroOne⟩
    else if b = 0 then some q
    else some ⟨false, .none⟩
  | .zeroZeroOne => if ignored b then some ⟨false, if b = 0 then .zero else .none⟩ else none

/-- At the end of a chunk. -/
def cut (q : Look) : Look :=
  if q.carried then q
  else if q.seen = .none ∨ q.seen = .zeroZeroOne then ⟨false, .none⟩
  else ⟨true, q.seen⟩

end Look

/-- Where a code is found from place `n` on, and whether it was carried over an end. -/
def scan : Look → Nat → List Symbol → Option (Nat × Bool)
  | _, _, [] => none
  | q, n, none :: xs => scan q.cut n xs
  | q, n, some b :: xs =>
    (q.byte ignored b).elim (some (n - 3, q.carried)) fun q => scan q (n + 1) xs

/-- The bytes of a cut stream. -/
def bytesOf (xs : List Symbol) : List Byte := xs.filterMap id

/-- Where it is cut, from place `n` on. -/
def cutsOf : Nat → List Symbol → List Nat
  | _, [] => []
  | n, none :: xs => n :: cutsOf n xs
  | n, some _ :: xs => cutsOf (n + 1) xs

theorem le_of_mem_cutsOf {p : Nat} : ∀ {n : Nat} {xs : List Symbol}, p ∈ cutsOf n xs → n ≤ p
  | _, [], h => absurd h List.not_mem_nil
  | n, none :: xs, h => by
    rcases List.mem_cons.mp h with rfl | h
    · exact Nat.le_refl _
    · exact le_of_mem_cutsOf h
  | n, some _ :: xs, h => by
    have hin : p ∈ cutsOf (n + 1) xs := h
    exact Nat.le_of_succ_le (le_of_mem_cutsOf hin)

/-! ## The codes that are not lost -/

/-- Where the zeros begin that are in front of the `01` of a code at `k`. -/
def lead (data : List Byte) (k : Nat) : Nat := ((data.take (k + 2)).rdropWhile (· = 0)).length

/-- The stream is cut behind the second of the zeros, or later in front of the `01`. -/
def Spanned (cuts : List Nat) (data : List Byte) (k : Nat) : Prop :=
  ∃ p ∈ cuts, lead data k + 2 ≤ p ∧ p ≤ k + 2

/-- It is not cut behind the first of the zeros, and behind the `01` only if it is cut
before. -/
def Caught (cuts : List Nat) (data : List Byte) (k : Nat) : Prop :=
  lead data k + 1 ∉ cuts ∧ (k + 3 ∈ cuts → Spanned cuts data k)

instance (cuts : List Nat) (data : List Byte) (k : Nat) : Decidable (Spanned cuts data k) :=
  inferInstanceAs (Decidable (∃ p ∈ cuts, _ ∧ _))

instance (cuts : List Nat) (data : List Byte) (k : Nat) : Decidable (Caught cuts data k) :=
  inferInstanceAs (Decidable (_ ∧ (_ → _)))

theorem exists_zeros (u : List Byte) :
    ∃ v m, u = v ++ List.replicate m 0 ∧ v.getLast? ≠ some 0 := by
  induction u using List.reverseRecOn with
  | nil => exact ⟨[], 0, rfl, by simp⟩
  | append_singleton u b ih =>
    by_cases hb : b = 0
    · obtain ⟨v, m, rfl, hv⟩ := ih
      refine ⟨v, m + 1, ?_, hv⟩
      rw [hb, List.replicate_succ', List.append_assoc]
    · refine ⟨u ++ [b], 0, by simp, ?_⟩
      rw [List.getLast?_concat]
      exact fun h => hb (Option.some.inj h)

variable {v : List Byte}

theorem rdropWhile_zeros (hv : v.getLast? ≠ some 0) (m : Nat) :
    (v ++ List.replicate m 0).rdropWhile (· = 0) = v := by
  induction m with
  | zero =>
    rw [List.replicate_zero, List.append_nil, List.rdropWhile_eq_self_iff]
    intro hne hlast
    refine hv ?_
    rw [List.getLast?_eq_some_getLast hne]
    exact congrArg some (by simpa using hlast)
  | succ m ih =>
    rw [List.replicate_succ', ← List.append_assoc, List.rdropWhile_concat_pos _ _ _ (by simp), ih]

theorem lead_eq (hv : v.getLast? ≠ some 0) {m k : Nat} (rest : List Byte)
    (hk : k + 2 = v.length + m) : lead (v ++ List.replicate m 0 ++ rest) k = v.length := by
  have htake : (v ++ List.replicate m 0 ++ rest).take (k + 2) = v ++ List.replicate m 0 := by
    rw [hk]
    exact List.take_left' (by rw [List.length_append, List.length_replicate])
  unfold lead
  rw [htake, rdropWhile_zeros hv]

/-! ## What has been seen -/

/-- Behind a run of `m` zeros from place `z` on. -/
def zerosLook (cuts : List Nat) (z m : Nat) : Look :=
  if z + 1 ∈ cuts then ⟨true, .zero⟩
  else if m = 1 then ⟨false, .zero⟩
  else if ∃ p ∈ cuts, z + 2 ≤ p ∧ p ≤ z + m then ⟨true, .zeroZero⟩
  else ⟨false, .zeroZero⟩

/-- Behind the `01` that ends such a run. -/
def oneLook (cuts : List Nat) (z m : Nat) : Look :=
  if z + 1 ∈ cuts then ⟨false, .none⟩
  else if ∃ p ∈ cuts, z + 2 ≤ p ∧ p ≤ z + m then ⟨true, .zeroZeroOne⟩
  else if z + m + 1 ∈ cuts then ⟨false, .none⟩
  else ⟨false, .zeroZeroOne⟩

section

variable (cuts : List Nat) (z m : Nat)

theorem zerosLook_cases :
    z + 1 ∈ cuts ∧ zerosLook cuts z m = ⟨true, .zero⟩ ∨
      z + 1 ∉ cuts ∧ m = 1 ∧ zerosLook cuts z m = ⟨false, .zero⟩ ∨
      z + 1 ∉ cuts ∧ m ≠ 1 ∧ (∃ p ∈ cuts, z + 2 ≤ p ∧ p ≤ z + m) ∧
        zerosLook cuts z m = ⟨true, .zeroZero⟩ ∨
      z + 1 ∉ cuts ∧ m ≠ 1 ∧ ¬ (∃ p ∈ cuts, z + 2 ≤ p ∧ p ≤ z + m) ∧
        zerosLook cuts z m = ⟨false, .zeroZero⟩ := by
  unfold zerosLook
  split
  next hfirst => exact Or.inl ⟨hfirst, rfl⟩
  next hfirst =>
    split
    next hone => exact Or.inr (Or.inl ⟨hfirst, hone, rfl⟩)
    next hone =>
      split
      next hspan => exact Or.inr (Or.inr (Or.inl ⟨hfirst, hone, hspan, rfl⟩))
      next hspan => exact Or.inr (Or.inr (Or.inr ⟨hfirst, hone, hspan, rfl⟩))

theorem oneLook_cases :
    z + 1 ∈ cuts ∧ oneLook cuts z m = ⟨false, .none⟩ ∨
      z + 1 ∉ cuts ∧ (∃ p ∈ cuts, z + 2 ≤ p ∧ p ≤ z + m) ∧
        oneLook cuts z m = ⟨true, .zeroZeroOne⟩ ∨
      z + 1 ∉ cuts ∧ ¬ (∃ p ∈ cuts, z + 2 ≤ p ∧ p ≤ z + m) ∧ z + m + 1 ∈ cuts ∧
        oneLook cuts z m = ⟨false, .none⟩ ∨
      z + 1 ∉ cuts ∧ ¬ (∃ p ∈ cuts, z + 2 ≤ p ∧ p ≤ z + m) ∧ z + m + 1 ∉ cuts ∧
        oneLook cuts z m = ⟨false, .zeroZeroOne⟩ := by
  unfold oneLook
  split
  next hfirst => exact Or.inl ⟨hfirst, rfl⟩
  next hfirst =>
    split
    next hspan => exact Or.inr (Or.inl ⟨hfirst, hspan, rfl⟩)
    next hspan =>
      split
      next hlast => exact Or.inr (Or.inr (Or.inl ⟨hfirst, hspan, hlast, rfl⟩))
      next hlast => exact Or.inr (Or.inr (Or.inr ⟨hfirst, hspan, hlast, rfl⟩))

end

/-- What has been seen of a code behind the bytes `u`, by where they are cut. -/
inductive Place (cuts : List Nat) : List Byte → Look → Prop
  | clear {u : List Byte} (hzero : u.getLast? ≠ some 0)
      (hone : ∀ v m, 2 ≤ m → u ≠ v ++ List.replicate m 0 ++ [1]) : Place cuts u ⟨false, .none⟩
  | zeros {v : List Byte} {m : Nat} (hv : v.getLast? ≠ some 0) (hm : 1 ≤ m) :
      Place cuts (v ++ List.replicate m 0) (zerosLook cuts v.length m)
  | one {v : List Byte} {m : Nat} (hv : v.getLast? ≠ some 0) (hm : 2 ≤ m) :
      Place cuts (v ++ List.replicate m 0 ++ [1]) (oneLook cuts v.length m)

variable {ignored} {cuts : List Nat} {u : List Byte} {q : Look}

theorem place_start (cuts : List Nat) : Place cuts [] ⟨false, .none⟩ :=
  .clear (by simp) fun v m _ h => by simp at h

theorem Place.of_clear (b : Byte) (hzero : u.getLast? ≠ some 0)
    (hcuts : ∀ p ∈ cuts, p ≤ u.length) :
    Place cuts (u ++ [b]) ⟨false, if b = 0 then .zero else .none⟩ := by
  by_cases hb : b = 0
  · subst hb
    have hnot : u.length + 1 ∉ cuts := fun h => absurd (hcuts _ h) (by omega)
    have hlook : zerosLook cuts u.length 1 = ⟨false, .zero⟩ := by
      unfold zerosLook
      rw [if_neg hnot, if_pos rfl]
    have : Place cuts (u ++ List.replicate 1 0) (zerosLook cuts u.length 1) :=
      .zeros hzero (Nat.le_refl 1)
    rw [hlook] at this
    exact this
  · rw [if_neg hb]
    refine .clear ?_ fun v m hm h => ?_
    · rw [List.getLast?_concat]
      exact fun h => hb (Option.some.inj h)
    · obtain ⟨hu, -⟩ := List.append_inj' h rfl
      refine hzero ?_
      obtain ⟨m, rfl⟩ := Nat.exists_eq_add_of_le hm
      rw [hu, Nat.add_comm, List.replicate_succ', ← List.append_assoc, List.getLast?_concat]

theorem getLast?_concat_one (v : List Byte) : (v ++ [1]).getLast? ≠ some (0 : Byte) := by
  rw [List.getLast?_concat]
  exact fun h => one_ne_zero_byte (Option.some.inj h)

theorem zerosLook_succ {z m : Nat} (hm : 1 ≤ m) (hcuts : ∀ p ∈ cuts, p ≤ z + m) :
    (zerosLook cuts z m).byte ignored 0 = some (zerosLook cuts z (m + 1)) := by
  have hsame : (∃ p ∈ cuts, z + 2 ≤ p ∧ p ≤ z + (m + 1)) ↔
      ∃ p ∈ cuts, z + 2 ≤ p ∧ p ≤ z + m :=
    ⟨fun ⟨p, hp, hlow, _⟩ => ⟨p, hp, hlow, hcuts p hp⟩,
      fun ⟨p, hp, hlow, hhigh⟩ => ⟨p, hp, hlow, by omega⟩⟩
  have hnext : zerosLook cuts z (m + 1) = if z + 1 ∈ cuts then ⟨true, .zero⟩
      else if ∃ p ∈ cuts, z + 2 ≤ p ∧ p ≤ z + m then ⟨true, .zeroZero⟩
      else ⟨false, .zeroZero⟩ := by
    unfold zerosLook
    rw [if_neg (by omega : m + 1 ≠ 1), if_congr hsame rfl rfl]
  rw [hnext]
  rcases zerosLook_cases cuts z m with ⟨hfirst, hq⟩ | ⟨hfirst, rfl, hq⟩ |
      ⟨hfirst, hone, hspan, hq⟩ | ⟨hfirst, hone, hspan, hq⟩
  · rw [hq, if_pos hfirst]
    rfl
  · have hnone : ¬ ∃ p ∈ cuts, z + 2 ≤ p ∧ p ≤ z + 1 := by
      rintro ⟨p, hp, hlow, hhigh⟩
      omega
    rw [hq, if_neg hfirst, if_neg hnone]
    rfl
  · rw [hq, if_neg hfirst, if_pos hspan]
    rfl
  · rw [hq, if_neg hfirst, if_neg hspan]
    rfl

theorem zerosLook_one {z m : Nat} (hm : 2 ≤ m) (hcuts : ∀ p ∈ cuts, p ≤ z + m) :
    (zerosLook cuts z m).byte ignored 1 = some (oneLook cuts z m) := by
  have hlast : z + m + 1 ∉ cuts := fun h => absurd (hcuts _ h) (by omega)
  rcases zerosLook_cases cuts z m with ⟨hfirst, hq⟩ | ⟨hfirst, rfl, hq⟩ |
      ⟨hfirst, hone, hspan, hq⟩ | ⟨hfirst, hone, hspan, hq⟩
  · unfold oneLook
    rw [hq, if_pos hfirst]
    rfl
  · exact absurd hm (by omega)
  · unfold oneLook
    rw [hq, if_neg hfirst, if_pos hspan]
    rfl
  · unfold oneLook
    rw [hq, if_neg hfirst, if_neg hspan, if_neg hlast]
    rfl

variable {b : Byte}

theorem zerosLook_other {z m : Nat} (hb : b ≠ 0) (h : b = 1 → m = 1) :
    (zerosLook cuts z m).byte ignored b = some ⟨false, .none⟩ := by
  rcases zerosLook_cases cuts z m with ⟨-, hq⟩ | ⟨-, -, hq⟩ | ⟨-, hone, -, hq⟩ | ⟨-, hone, -, hq⟩
  · rw [hq]
    exact if_neg hb
  · rw [hq]
    exact if_neg hb
  · rw [hq]
    exact (if_neg fun hb1 => hone (h hb1)).trans (if_neg hb)
  · rw [hq]
    exact (if_neg fun hb1 => hone (h hb1)).trans (if_neg hb)

theorem oneLook_byte {z m : Nat} {q' : Look} (h : (oneLook cuts z m).byte ignored b = some q') :
    q' = ⟨false, if b = 0 then .zero else .none⟩ := by
  have hcode : ∀ carried, Look.byte ignored ⟨carried, .zeroZeroOne⟩ b = some q' →
      q' = ⟨false, if b = 0 then .zero else .none⟩ := by
    intro carried h
    unfold Look.byte at h
    dsimp only at h
    split at h
    next => exact (Option.some.inj h).symm
    next => cases h
  rcases oneLook_cases cuts z m with ⟨-, hq⟩ | ⟨-, -, hq⟩ | ⟨-, -, -, hq⟩ | ⟨-, -, -, hq⟩
  · rw [hq] at h
    exact (Option.some.inj h).symm
  · exact hcode true (hq ▸ h)
  · rw [hq] at h
    exact (Option.some.inj h).symm
  · exact hcode false (hq ▸ h)

theorem Place.byte (h : Place cuts u q) (hcuts : ∀ p ∈ cuts, p ≤ u.length) {q' : Look}
    (hbyte : q.byte ignored b = some q') : Place cuts (u ++ [b]) q' := by
  cases h with
  | clear hzero hone =>
    obtain rfl := Option.some.inj hbyte
    exact .of_clear b hzero hcuts
  | @zeros v m hv hm =>
    have hcuts' : ∀ p ∈ cuts, p ≤ v.length + m := by simpa using hcuts
    by_cases hb : b = 0
    · subst hb
      rw [zerosLook_succ hm hcuts'] at hbyte
      obtain rfl := Option.some.inj hbyte
      have : Place cuts (v ++ List.replicate (m + 1) 0) (zerosLook cuts v.length (m + 1)) :=
        .zeros hv (Nat.le_succ_of_le hm)
      rwa [List.replicate_succ', ← List.append_assoc] at this
    · by_cases hend : b = 1 ∧ 2 ≤ m
      · obtain ⟨rfl, htwo⟩ := hend
        rw [zerosLook_one htwo hcuts'] at hbyte
        obtain rfl := Option.some.inj hbyte
        exact .one hv htwo
      · rw [zerosLook_other hb fun hb1 => by
          have hless : ¬ 2 ≤ m := fun htwo => hend ⟨hb1, htwo⟩
          omega] at hbyte
        obtain rfl := Option.some.inj hbyte
        refine .clear ?_ fun w k hk hw => ?_
        · rw [List.getLast?_concat]
          exact fun h => hb (Option.some.inj h)
        · obtain ⟨hzeros, hb1⟩ := List.append_inj' hw rfl
          refine hend ⟨(List.cons.inj hb1).1, ?_⟩
          -- as many zeros are in front of the `01`, for the rest does not end in one
          by_contra hless
          obtain rfl : m = 1 := by omega
          obtain ⟨k, rfl⟩ := Nat.exists_eq_add_of_le hk
          rw [List.replicate_one, Nat.add_comm, List.replicate_succ', ← List.append_assoc]
            at hzeros
          obtain ⟨hzeros, -⟩ := List.append_inj' hzeros rfl
          refine hv ?_
          rw [hzeros, List.replicate_succ', ← List.append_assoc, List.getLast?_concat]
  | @one v m hv hm =>
    rw [oneLook_byte hbyte]
    exact .of_clear b (getLast?_concat_one _) hcuts

theorem zerosLook_cut {z m : Nat} (hm : 1 ≤ m) :
    (zerosLook cuts z m).cut = zerosLook (cuts ++ [z + m]) z m := by
  have hmem : z + 1 ∈ cuts ++ [z + m] ↔ z + 1 ∈ cuts ∨ m = 1 := by
    rw [List.mem_append, List.mem_singleton]
    exact or_congr_right (by omega)
  have hspan : m ≠ 1 → ∃ p ∈ cuts ++ [z + m], z + 2 ≤ p ∧ p ≤ z + m := fun hone =>
    ⟨z + m, List.mem_append_right _ List.mem_cons_self, by omega, Nat.le_refl _⟩
  rcases zerosLook_cases cuts z m with ⟨hfirst, hq⟩ | ⟨hfirst, hone, hq⟩ |
      ⟨hfirst, hone, -, hq⟩ | ⟨hfirst, hone, -, hq⟩
  · rw [hq, zerosLook, if_pos (hmem.mpr (Or.inl hfirst))]
    rfl
  · rw [hq, zerosLook, if_pos (hmem.mpr (Or.inr hone))]
    rfl
  · rw [hq, zerosLook, if_neg (fun h => (hmem.mp h).elim hfirst hone), if_neg hone,
      if_pos (hspan hone)]
    rfl
  · rw [hq, zerosLook, if_neg (fun h => (hmem.mp h).elim hfirst hone), if_neg hone,
      if_pos (hspan hone)]
    rfl

theorem oneLook_cut {z m : Nat} (hm : 2 ≤ m) :
    (oneLook cuts z m).cut = oneLook (cuts ++ [z + m + 1]) z m := by
  have hmem : z + 1 ∈ cuts ++ [z + m + 1] ↔ z + 1 ∈ cuts := by
    rw [List.mem_append, List.mem_singleton]
    exact or_iff_left (by omega)
  have hspan : (∃ p ∈ cuts ++ [z + m + 1], z + 2 ≤ p ∧ p ≤ z + m) ↔
      ∃ p ∈ cuts, z + 2 ≤ p ∧ p ≤ z + m := by
    refine ⟨fun ⟨p, hp, hin⟩ => ?_, fun ⟨p, hp, hin⟩ => ⟨p, List.mem_append_left _ hp, hin⟩⟩
    rcases List.mem_append.mp hp with hp | hp
    · exact ⟨p, hp, hin⟩
    · rw [List.mem_singleton] at hp
      omega
  have hlast : z + m + 1 ∈ cuts ++ [z + m + 1] := List.mem_append_right _ List.mem_cons_self
  rcases oneLook_cases cuts z m with ⟨hfirst, hq⟩ | ⟨hfirst, hin, hq⟩ |
      ⟨hfirst, hin, -, hq⟩ | ⟨hfirst, hin, -, hq⟩
  · rw [hq, oneLook, if_pos (hmem.mpr hfirst)]
    rfl
  · rw [hq, oneLook, if_neg (fun h => hfirst (hmem.mp h)), if_pos (hspan.mpr hin)]
    rfl
  · rw [hq, oneLook, if_neg (fun h => hfirst (hmem.mp h)), if_neg (fun h => hin (hspan.mp h)),
      if_pos hlast]
    rfl
  · rw [hq, oneLook, if_neg (fun h => hfirst (hmem.mp h)), if_neg (fun h => hin (hspan.mp h)),
      if_pos hlast]
    rfl

theorem Place.cut (h : Place cuts u q) : Place (cuts ++ [u.length]) u q.cut := by
  cases h with
  | clear hzero hone => exact .clear hzero hone
  | @zeros v m hv hm =>
    have hlength : (v ++ List.replicate m (0 : Byte)).length = v.length + m := by simp
    rw [hlength, zerosLook_cut hm]
    exact .zeros hv hm
  | @one v m hv hm =>
    have hlength : (v ++ List.replicate m (0 : Byte) ++ [1]).length = v.length + m + 1 := by
      simp [Nat.add_assoc]
    rw [hlength, oneLook_cut hm]
    exact .one hv hm

/-! ## What is found -/

theorem Place.byte_eq_none (h : Place cuts u q) (hbyte : q.byte ignored b = none) :
    ∃ v m, u = v ++ List.replicate m 0 ++ [1] ∧ v.getLast? ≠ some 0 ∧ 2 ≤ m ∧
      ignored b = false ∧ v.length + 1 ∉ cuts ∧
      (q.carried = true ↔ ∃ p ∈ cuts, v.length + 2 ≤ p ∧ p ≤ v.length + m) ∧
      (v.length + m + 1 ∈ cuts → ∃ p ∈ cuts, v.length + 2 ≤ p ∧ p ≤ v.length + m) := by
  have hseen : q.seen = .zeroZeroOne ∧ ignored b = false := by
    unfold Look.byte at hbyte
    split at hbyte
    next => cases hbyte
    next => split at hbyte <;> cases hbyte
    next =>
      split at hbyte
      next => cases hbyte
      next => split at hbyte <;> cases hbyte
    next hone =>
      split at hbyte
      next => cases hbyte
      next hcode => exact ⟨hone, by simpa using hcode⟩
  cases h with
  | clear => cases hseen.1
  | @zeros v m hv hm =>
    exfalso
    rcases zerosLook_cases cuts v.length m with ⟨-, hq⟩ | ⟨-, -, hq⟩ | ⟨-, -, -, hq⟩ | ⟨-, -, -, hq⟩
    all_goals
      rw [hq] at hseen
      cases hseen.1
  | @one v m hv hm =>
    refine ⟨v, m, rfl, hv, hm, hseen.2, ?_⟩
    rcases oneLook_cases cuts v.length m with ⟨-, hq⟩ | ⟨hfirst, hspan, hq⟩ | ⟨-, -, -, hq⟩ |
        ⟨hfirst, hspan, hlast, hq⟩
    · rw [hq] at hseen
      cases hseen.1
    · rw [hq]
      exact ⟨hfirst, iff_of_true rfl hspan, fun _ => hspan⟩
    · rw [hq] at hseen
      cases hseen.1
    · rw [hq]
      exact ⟨hfirst, iff_of_false Bool.false_ne_true hspan, fun h => absurd h hlast⟩

theorem Place.byte_of_one {m : Nat} (h : Place cuts (v ++ List.replicate m 0 ++ [1]) q)
    (hv : v.getLast? ≠ some 0) (hm : 2 ≤ m) (hb : ignored b = false) (hfirst : v.length + 1 ∉ cuts)
    (hlast : v.length + m + 1 ∈ cuts → ∃ p ∈ cuts, v.length + 2 ≤ p ∧ p ≤ v.length + m) :
    q.byte ignored b = none := by
  have hq : q = oneLook cuts v.length m := by
    generalize hu : v ++ List.replicate m 0 ++ [1] = u at h
    cases h with
    | clear hzero hone => exact absurd hu.symm (hone v m hm)
    | @zeros w k hw hk =>
      obtain ⟨k, rfl⟩ := Nat.exists_eq_add_of_le hk
      rw [Nat.add_comm 1 k, List.replicate_succ', ← List.append_assoc] at hu
      obtain ⟨-, hne⟩ := List.append_inj' hu rfl
      exact absurd (List.cons.inj hne).1 one_ne_zero_byte
    | @one w k hw hk =>
      obtain ⟨hu, -⟩ := List.append_inj' hu rfl
      have hvw : v = w := by rw [← rdropWhile_zeros hv m, hu, rdropWhile_zeros hw]
      subst hvw
      have hmk := congrArg List.length hu
      simp only [List.length_append, List.length_replicate, Nat.add_left_cancel_iff] at hmk
      rw [hmk]
  have hcode : ∀ carried, Look.byte ignored ⟨carried, .zeroZeroOne⟩ b = none := by
    intro carried
    unfold Look.byte
    dsimp only
    rw [if_neg (by rw [hb]; exact Bool.false_ne_true)]
  rw [hq]
  rcases oneLook_cases cuts v.length m with ⟨hfirst', -⟩ | ⟨-, -, hq⟩ | ⟨-, hspan, hlast', -⟩ |
      ⟨-, -, -, hq⟩
  · exact absurd hfirst' hfirst
  · rw [hq]
    exact hcode true
  · exact absurd (hlast hlast') hspan
  · rw [hq]
    exact hcode false

theorem isCode_at {m k : Nat} (hm : 2 ≤ m) (hk : k + 2 = v.length + m) (b : Byte)
    (rest : List Byte) :
    IsCode ignored (v ++ List.replicate m 0 ++ [1] ++ b :: rest) k ↔ ignored b = false := by
  obtain ⟨m, rfl⟩ := Nat.exists_eq_add_of_le' hm
  have hsplit : v ++ List.replicate (m + 2) 0 ++ [1] ++ b :: rest =
      (v ++ List.replicate m 0) ++ 0 :: 0 :: 1 :: b :: rest := by
    rw [List.replicate_succ', List.replicate_succ']
    simp
  have hlength : k = (v ++ List.replicate m (0 : Byte)).length + 0 := by
    rw [List.length_append, List.length_replicate]
    omega
  rw [hsplit, hlength, isCode_append_right]
  refine ⟨fun h => h.2.2.2.2, fun hb => ⟨?_, rfl, rfl, rfl, hb⟩⟩
  simp only [List.length_cons]
  omega

theorem caught_at {m k : Nat} (hv : v.getLast? ≠ some 0) (hk : k + 2 = v.length + m)
    (rest : List Byte) {later : List Nat} (hlater : ∀ p ∈ later, k + 4 ≤ p) (hm : 2 ≤ m) :
    (Spanned (cuts ++ later) (v ++ List.replicate m 0 ++ rest) k ↔
        ∃ p ∈ cuts, v.length + 2 ≤ p ∧ p ≤ v.length + m) ∧
      (Caught (cuts ++ later) (v ++ List.replicate m 0 ++ rest) k ↔ v.length + 1 ∉ cuts ∧
        (v.length + m + 1 ∈ cuts → ∃ p ∈ cuts, v.length + 2 ≤ p ∧ p ≤ v.length + m)) := by
  have hlead := lead_eq hv rest hk
  have hmem : ∀ p < k + 4, (p ∈ cuts ++ later ↔ p ∈ cuts) := by
    intro p hp
    rw [List.mem_append]
    exact or_iff_left fun hlate => absurd (hlater p hlate) (by omega)
  have hspanned : Spanned (cuts ++ later) (v ++ List.replicate m 0 ++ rest) k ↔
      ∃ p ∈ cuts, v.length + 2 ≤ p ∧ p ≤ v.length + m := by
    unfold Spanned
    rw [hlead, hk]
    constructor
    · rintro ⟨p, hp, hlow, hhigh⟩
      exact ⟨p, (hmem p (by omega)).mp hp, hlow, hhigh⟩
    · rintro ⟨p, hp, hlow, hhigh⟩
      exact ⟨p, (hmem p (by omega)).mpr hp, hlow, hhigh⟩
  refine ⟨hspanned, ?_⟩
  unfold Caught
  rw [hspanned, hlead, hmem _ (by omega), hmem _ (by omega), show k + 3 = v.length + m + 1 by omega]

theorem scan_sound : ∀ {xs : List Symbol} {cuts : List Nat} {u : List Byte} {q : Look} {k : Nat}
    {carried : Bool}, Place cuts u q → (∀ p ∈ cuts, p ≤ u.length) →
      scan ignored q u.length xs = some (k, carried) →
      IsCode ignored (u ++ bytesOf xs) k ∧
        Caught (cuts ++ cutsOf u.length xs) (u ++ bytesOf xs) k ∧
        (carried = true ↔ Spanned (cuts ++ cutsOf u.length xs) (u ++ bytesOf xs) k)
  | [], _, _, _, _, _, _, _, h => by cases h
  | none :: xs, cuts, u, q, k, carried, hplace, hcuts, h => by
    have hcuts' : ∀ p ∈ cuts ++ [u.length], p ≤ u.length := by
      intro p hp
      rcases List.mem_append.mp hp with hp | hp
      · exact hcuts p hp
      · exact Nat.le_of_eq (List.mem_singleton.mp hp)
    have hscan : scan ignored q.cut u.length xs = some (k, carried) := h
    have := scan_sound hplace.cut hcuts' hscan
    rwa [List.append_assoc] at this
  | some b :: xs, cuts, u, q, k, carried, hplace, hcuts, h => by
    unfold scan at h
    cases hbyte : q.byte ignored b with
    | none =>
      rw [hbyte] at h
      obtain ⟨rfl, rfl⟩ := Prod.mk.inj (Option.some.inj h)
      obtain ⟨v, m, hu, hv, hm, hb, hfirst, hspan, hlast⟩ := hplace.byte_eq_none hbyte
      have hlength : u.length = v.length + m + 1 := by
        rw [hu]
        simp [Nat.add_assoc]
      have hk : u.length - 3 + 2 = v.length + m := by omega
      have hlater : ∀ p ∈ cutsOf (u.length + 1) xs, u.length - 3 + 4 ≤ p := by
        intro p hp
        have := le_of_mem_cutsOf hp
        omega
      have hw : u ++ bytesOf (some b :: xs) =
          v ++ List.replicate m 0 ++ ([1] ++ b :: bytesOf xs) := by
        rw [hu, List.append_assoc _ [1]]
        rfl
      obtain ⟨hspanned, hcaught⟩ := caught_at hv hk ([1] ++ b :: bytesOf xs) hlater hm
      rw [hw]
      refine ⟨?_, hcaught.mpr ⟨hfirst, hlast⟩, hspan.trans hspanned.symm⟩
      rw [← List.append_assoc]
      exact (isCode_at hm hk b _).mpr hb
    | some q' =>
      rw [hbyte] at h
      have hlength : (u ++ [b]).length = u.length + 1 := by simp
      have hcuts' : ∀ p ∈ cuts, p ≤ (u ++ [b]).length := by
        intro p hp
        rw [hlength]
        exact Nat.le_succ_of_le (hcuts p hp)
      have hscan : scan ignored q' (u ++ [b]).length xs = some (k, carried) := by
        rw [hlength]
        exact h
      have := scan_sound (hplace.byte hcuts hbyte) hcuts' hscan
      rw [hlength, List.append_assoc] at this
      exact this

theorem zeros_of_isCode {w : List Byte} {k : Nat} (h : IsCode ignored w k) :
    ∃ v m, w.take (k + 3) = v ++ List.replicate m 0 ++ [1] ∧ v.getLast? ≠ some 0 ∧ 2 ≤ m ∧
      k + 2 = v.length + m := by
  obtain ⟨hlt, h0, h1, h2, -⟩ := h
  obtain ⟨v, m, hsplit, hv⟩ := exists_zeros (w.take (k + 2))
  have hlength : k + 2 = v.length + m := by
    have := congrArg List.length hsplit
    rw [List.length_take_of_le (by omega), List.length_append, List.length_replicate] at this
    exact this
  have hbyte : ∀ i, i < k + 2 → byteAt w i = byteAt (v ++ List.replicate m 0) i := by
    intro i hi
    unfold byteAt
    rw [← hsplit, List.getD_eq_getElem?_getD, List.getD_eq_getElem?_getD,
      List.getElem?_take_of_lt hi]
  refine ⟨v, m, ?_, hv, ?_, hlength⟩
  · have hk : k + 2 < w.length := by omega
    have hone : w[k + 2] = 1 := by
      unfold byteAt at h2
      rwa [List.getD_eq_getElem _ _ (by omega)] at h2
    rw [← List.take_append_getElem (by omega), hsplit, hone]
  · -- else the last byte in front of the zeros is one itself
    by_contra hless
    have hpos : 0 < v.length := by omega
    have hlast : byteAt w (v.length - 1) = 0 := by
      have hcase : v.length - 1 = k ∨ v.length - 1 = k + 1 := by omega
      rcases hcase with hcase | hcase
      · rw [hcase]
        exact h0
      · rw [hcase]
        exact h1
    rw [hbyte _ (by omega), byteAt_append_left (by omega)] at hlast
    refine hv ?_
    rw [List.getLast?_eq_getElem?, List.getElem?_eq_getElem (by omega)]
    unfold byteAt at hlast
    rw [List.getD_eq_getElem _ _ (by omega)] at hlast
    rw [hlast]

theorem scan_complete : ∀ {xs : List Symbol} {cuts : List Nat} {u : List Byte} {q : Look} {k : Nat},
    Place cuts u q → (∀ p ∈ cuts, p ≤ u.length) → u.length ≤ k + 3 →
      IsCode ignored (u ++ bytesOf xs) k →
      Caught (cuts ++ cutsOf u.length xs) (u ++ bytesOf xs) k →
      ∃ k' carried, scan ignored q u.length xs = some (k', carried) ∧ k' ≤ k
  | [], cuts, u, q, k, _, _, hk, hcode, _ => by
    have hlt := hcode.1
    rw [show u ++ bytesOf [] = u from List.append_nil u] at hlt
    omega
  | none :: xs, cuts, u, q, k, hplace, hcuts, hk, hcode, hcaught => by
    have hcuts' : ∀ p ∈ cuts ++ [u.length], p ≤ u.length := by
      intro p hp
      rcases List.mem_append.mp hp with hp | hp
      · exact hcuts p hp
      · exact Nat.le_of_eq (List.mem_singleton.mp hp)
    have hcaught' : Caught (cuts ++ [u.length] ++ cutsOf u.length xs) (u ++ bytesOf xs) k := by
      rw [List.append_assoc]
      exact hcaught
    have hcode' : IsCode ignored (u ++ bytesOf xs) k := hcode
    obtain ⟨k', carried, hscan, hle⟩ := scan_complete hplace.cut hcuts' hk hcode' hcaught'
    exact ⟨k', carried, hscan, hle⟩
  | some b :: xs, cuts, u, q, k, hplace, hcuts, hk, hcode, hcaught => by
    unfold scan
    cases hbyte : q.byte ignored b with
    | none => exact ⟨u.length - 3, q.carried, rfl, by omega⟩
    | some q' =>
      have hlength : (u ++ [b]).length = u.length + 1 := by simp
      have hbytes : u ++ bytesOf (some b :: xs) = u ++ [b] ++ bytesOf xs := by
        rw [List.append_assoc]
        rfl
      rcases Nat.lt_or_ge u.length (k + 3) with hlater | hhere
      · have hcuts' : ∀ p ∈ cuts, p ≤ (u ++ [b]).length := by
          intro p hp
          rw [hlength]
          exact Nat.le_succ_of_le (hcuts p hp)
        have hcaught' : Caught (cuts ++ cutsOf (u ++ [b]).length xs) (u ++ [b] ++ bytesOf xs) k := by
          rw [hlength, ← hbytes]
          exact hcaught
        rw [Option.elim_some, ← hlength]
        refine scan_complete (hplace.byte hcuts hbyte) hcuts' ?_ (hbytes ▸ hcode) hcaught'
        rw [hlength]
        exact hlater
      · -- this is the last byte of the code
        exfalso
        obtain rfl : k = u.length - 3 := by omega
        obtain ⟨v, m, htake, hv, hm, hk2⟩ := zeros_of_isCode hcode
        rw [List.take_left' (by omega)] at htake
        have hw : u ++ bytesOf (some b :: xs) =
            v ++ List.replicate m 0 ++ ([1] ++ b :: bytesOf xs) := by
          rw [htake, List.append_assoc _ [1]]
          rfl
        have hlater : ∀ p ∈ cutsOf (u.length + 1) xs, u.length - 3 + 4 ≤ p := by
          intro p hp
          have := le_of_mem_cutsOf hp
          omega
        obtain ⟨hfirst, hlast⟩ := (caught_at hv hk2 ([1] ++ b :: bytesOf xs) hlater hm).2.mp
          (hw ▸ hcaught)
        have hb : ignored b = false := by
          refine (isCode_at hm hk2 b (bytesOf xs)).mp ?_
          rw [List.append_assoc _ [1], ← hw]
          exact hcode
        have hnone := Place.byte_of_one (htake ▸ hplace) hv hm hb hfirst hlast
        rw [hbyte] at hnone
        cases hnone

end Duckbox.Collator.Audio
