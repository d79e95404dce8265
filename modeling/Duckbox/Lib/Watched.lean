/-!
# Watched loops

A loop `step` goes on with a next state or ends, and either way leaves a log of what it
did. `watch` collects the log of a whole run, for as many passes as there is fuel.
Where the state before a pass decides whether what it does is good (`ok`), and a good
pass keeps an invariant and comes closer to the end, a whole run ends and is good
exactly when every pass it comes to finds its state `ok` (`watch_iff`).
-/

namespace Duckbox.Lib

variable {σ τ : Type} (step : σ → Option σ × List τ)

/-- The log of a run. -/
def watch : Nat → σ → Option (List τ)
  | 0, _ => none
  | fuel + 1, s =>
    match (step s).1 with
    | none => some (step s).2
    | some t => (watch fuel t).map ((step s).2 ++ ·)

/-- The first passes, as far as there are so many, find their states `ok`. -/
def OkFor (ok : σ → Prop) : Nat → σ → Prop
  | 0, _ => True
  | n + 1, s => ok s ∧ ∀ t, (step s).1 = some t → OkFor ok n t

variable {step} {ok : σ → Prop} {P : σ → Prop} {good : τ → Prop} {d : σ → Nat} {s t : σ}

theorem watch_of_ends {fuel : Nat} (h : (step s).1 = none) :
    watch step (fuel + 1) s = some (step s).2 := by
  unfold watch
  rw [h]

theorem watch_of_goesOn {fuel : Nat} (h : (step s).1 = some t) :
    watch step (fuel + 1) s = (watch step fuel t).map ((step s).2 ++ ·) := by
  conv => lhs; unfold watch
  rw [h]

theorem okFor_of_watch (hstep : ∀ {s}, P s → ((∀ x ∈ (step s).2, good x) ↔ ok s))
    (hnext : ∀ {s t}, P s → ok s → (step s).1 = some t → P t) (n : Nat) :
    ∀ {fuel : Nat} {s : σ} {log : List τ}, P s → watch step fuel s = some log →
      (∀ x ∈ log, good x) → OkFor step ok n s := by
  induction n with
  | zero => intro fuel s log _ _ _; trivial
  | succ n ih =>
    intro fuel s log hs hlog hgood
    cases fuel with
    | zero => cases hlog
    | succ fuel =>
      cases hstep' : (step s).1 with
      | none =>
        rw [watch_of_ends hstep'] at hlog
        obtain rfl := Option.some.inj hlog
        exact ⟨(hstep hs).mp hgood, fun t ht => by rw [hstep'] at ht; cases ht⟩
      | some u =>
        rw [watch_of_goesOn hstep'] at hlog
        obtain ⟨rest, hrest, rfl⟩ := Option.map_eq_some_iff.mp hlog
        obtain ⟨hfirst, hmore⟩ := List.forall_mem_append.mp hgood
        have hok := (hstep hs).mp hfirst
        refine ⟨hok, fun t ht => ?_⟩
        obtain rfl := Option.some.inj (hstep'.symm.trans ht)
        exact ih (hnext hs hok hstep') hrest hmore

theorem watch_of_okFor (hstep : ∀ {s}, P s → ((∀ x ∈ (step s).2, good x) ↔ ok s))
    (hnext : ∀ {s t}, P s → ok s → (step s).1 = some t → P t)
    (hcloser : ∀ {s t}, P s → ok s → (step s).1 = some t → d t < d s) {fuel : Nat} :
    ∀ {s : σ}, P s → (∀ n, OkFor step ok n s) → d s < fuel →
      ∃ log, watch step fuel s = some log ∧ ∀ x ∈ log, good x := by
  induction fuel with
  | zero => intro s _ _ hfuel; exact absurd hfuel (Nat.not_lt_zero _)
  | succ fuel ih =>
    intro s hs hall hfuel
    have hok := (hall 1).1
    have hfirst := (hstep hs).mpr hok
    cases hstep' : (step s).1 with
    | none => exact ⟨_, watch_of_ends hstep', hfirst⟩
    | some t =>
      obtain ⟨rest, hrest, hmore⟩ := ih (hnext hs hok hstep')
        (fun n => (hall (n + 1)).2 t hstep')
        (Nat.lt_of_lt_of_le (hcloser hs hok hstep') (Nat.le_of_lt_succ hfuel))
      refine ⟨(step s).2 ++ rest, ?_, List.forall_mem_append.mpr ⟨hfirst, hmore⟩⟩
      rw [watch_of_goesOn hstep', hrest]
      rfl

theorem watch_iff (hstep : ∀ {s}, P s → ((∀ x ∈ (step s).2, good x) ↔ ok s))
    (hnext : ∀ {s t}, P s → ok s → (step s).1 = some t → P t)
    (hcloser : ∀ {s t}, P s → ok s → (step s).1 = some t → d t < d s) (hs : P s) :
    (∃ fuel log, watch step fuel s = some log ∧ ∀ x ∈ log, good x) ↔ ∀ n, OkFor step ok n s := by
  constructor
  · rintro ⟨fuel, log, hlog, hgood⟩ n
    exact okFor_of_watch hstep hnext n hs hlog hgood
  · intro hall
    exact ⟨_, watch_of_okFor hstep hnext hcloser hs hall (Nat.lt_succ_self _)⟩

end Duckbox.Lib
