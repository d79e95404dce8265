import Mathlib.Data.Finset.Insert
import Mathlib.Data.Finset.Erase

/-!
# Places that own things

Some places hold a thing each, no thing is in two places, and all that is held
is among what there are references for (`Places`). Moving things between places
keeps this (`Places.reindex`); so does putting a new thing somewhere
(`Places.put`) and letting go of what is in a place (`Places.erase`).
-/

namespace Duckbox.Lib

variable {π α : Type}

/-- What is in the places is owned, each in one place. -/
structure Places (owners : Finset α) (at_ : π → Option α) : Prop where
  mem : ∀ {p a}, at_ p = some a → a ∈ owners
  inj : ∀ {p q a}, at_ p = some a → at_ q = some a → p = q

namespace Places

variable {owners : Finset α} {before after : π → Option α}

/-- Things have been moved, or are no longer accounted for. -/
theorem reindex (h : Places owners before) {f : π → π} (hf : Function.Injective f)
    (hat : ∀ p, after p = none ∨ after p = before (f p)) : Places owners after := by
  have hbefore : ∀ {p a}, after p = some a → before (f p) = some a := by
    intro p a hp
    rcases hat p with hnone | hsame
    · exact nomatch hnone.symm.trans hp
    · exact hsame.symm.trans hp
  exact ⟨fun hp => h.mem (hbefore hp), fun hp hq => hf (h.inj (hbefore hp) (hbefore hq))⟩

theorem mono (h : Places owners before) (hat : ∀ p, after p = none ∨ after p = before p) :
    Places owners after :=
  h.reindex Function.injective_id hat

variable [DecidableEq α]

/-- A new thing is in a place where nothing else is. -/
theorem put [DecidableEq π] (h : Places owners before) {a : α} (ha : a ∉ owners) {q : π}
    (hput : after q = some a) (hat : ∀ p, p ≠ q → after p = before p) :
    Places (insert a owners) after := by
  refine ⟨fun {p b} hp => ?_, fun {p p' b} hp hp' => ?_⟩
  · by_cases hq : p = q
    · rw [hq, hput] at hp
      exact Finset.mem_insert.mpr (.inl (Option.some.inj hp).symm)
    · rw [hat p hq] at hp
      exact Finset.mem_insert_of_mem (h.mem hp)
  · have hnew : ∀ {r}, r ≠ q → after r = some a → False := by
      intro r hr hra
      rw [hat r hr] at hra
      exact ha (h.mem hra)
    by_cases hq : p = q
    · rw [hq, hput] at hp
      obtain rfl := Option.some.inj hp
      by_cases hq' : p' = q
      · exact hq.trans hq'.symm
      · exact (hnew hq' hp').elim
    · by_cases hq' : p' = q
      · rw [hq', hput] at hp'
        obtain rfl := Option.some.inj hp'
        exact (hnew hq hp).elim
      · rw [hat p hq] at hp
        rw [hat p' hq'] at hp'
        exact h.inj hp hp'

/-- What was in a place is let go of. -/
theorem erase (h : Places owners before) {a : α} {q : π} (hq : before q = some a)
    (hempty : after q = none) (hat : ∀ p, p ≠ q → after p = before p) :
    Places (owners.erase a) after := by
  have hbefore : ∀ {p b}, after p = some b → p ≠ q ∧ before p = some b := by
    intro p b hp
    have hne : p ≠ q := by
      rintro rfl
      exact nomatch hempty.symm.trans hp
    exact ⟨hne, (hat p hne).symm.trans hp⟩
  refine ⟨fun {p b} hp => ?_, fun hp hp' => h.inj (hbefore hp).2 (hbefore hp').2⟩
  obtain ⟨hne, hp⟩ := hbefore hp
  refine Finset.mem_erase.mpr ⟨?_, h.mem hp⟩
  rintro rfl
  exact hne (h.inj hp hq)

end Places

end Duckbox.Lib
