/-!
# Parsers that stop

`Parse σ ε α` runs over a state and gives a value or stops with an error; the
state it had got to stays. `Stops p s e` and `Yields p s a s'` say which. A
parser stops in its first part, or in the second where the first has yielded
(`stops_bind`), so one that never stops with `e` is put together from such
(`Never`), and so is one that always yields (`Always`), or one that keeps a
property of the state (`Keeps`).

Two counted loops: `forFrom` goes through all its passes, `forBreak` ends with
the first that breaks.
-/

namespace Duckbox.Lib

/-- A parser over `σ` that may stop with an `ε`. -/
def Parse (σ ε α : Type) : Type := σ → Except ε α × σ

namespace Parse

variable {σ ε ε' α β : Type}

/-- What follows a result. -/
def andThen (p : Parse σ ε α) (f : α → Parse σ ε β) : Parse σ ε β := fun s =>
  match p s with
  | (.ok a, s') => f a s'
  | (.error e, s') => (.error e, s')

instance : Monad (Parse σ ε) where
  pure a := fun s => (.ok a, s)
  bind := andThen

def stop (e : ε) : Parse σ ε α := fun s => (.error e, s)

def modify (f : σ → σ) : Parse σ ε Unit := fun s => (.ok (), f s)

/-- `if( c ) p;`. -/
def when (c : Bool) (p : Parse σ ε Unit) : Parse σ ε Unit := if c then p else pure ()

/-- `for( ; passes != 0; passes--, i++ )`. -/
def forFrom (body : Nat → Parse σ ε Unit) : Nat → Nat → Parse σ ε Unit
  | 0, _ => pure ()
  | passes + 1, i => do
    body i
    forFrom body passes (i + 1)

/-- As `forFrom`, until a pass breaks; whether one did. -/
def forBreak (body : Nat → Parse σ ε Bool) : Nat → Nat → Parse σ ε Bool
  | 0, _ => pure false
  | passes + 1, i => do
    if ← body i then pure true else forBreak body passes (i + 1)

/-! ## Outcomes -/

/-- `p` stops in state `s` with `e`. -/
def Stops (p : Parse σ ε α) (s : σ) (e : ε) : Prop := (p s).1 = .error e

/-- `p` yields `a` in state `s` and leaves `s'`. -/
def Yields (p : Parse σ ε α) (s : σ) (a : α) (s' : σ) : Prop := p s = (.ok a, s')

/-- `p` stops with `e` in no state. -/
def Never (p : Parse σ ε α) (e : ε) : Prop := ∀ s, ¬ Stops p s e

/-- `p` yields in every state. -/
def Always (p : Parse σ ε α) : Prop := ∀ s, ∃ a s', Yields p s a s'

/-- What holds before `p` holds after it, if it yields. -/
def Keeps (P : σ → Prop) (p : Parse σ ε α) : Prop := ∀ s a s', P s → Yields p s a s' → P s'

variable {p : Parse σ ε α} {f : α → Parse σ ε β} {e : ε}

theorem stops_bind {s : σ} :
    Stops (p >>= f) s e ↔ Stops p s e ∨ ∃ a s', Yields p s a s' ∧ Stops (f a) s' e := by
  show (andThen p f s).1 = .error e ↔ _
  unfold andThen Stops Yields
  rcases p s with ⟨_ | a, s'⟩
  · simp
  · constructor
    · intro h
      exact .inr ⟨a, s', rfl, h⟩
    · rintro (h | ⟨a', s'', hy, h⟩)
      · exact absurd h (by simp)
      · obtain ⟨ha, rfl⟩ := Prod.mk.inj hy
        obtain rfl : a = a' := Except.ok.inj ha
        exact h

theorem yields_bind {s s'' : σ} {b : β} :
    Yields (p >>= f) s b s'' ↔ ∃ a s', Yields p s a s' ∧ Yields (f a) s' b s'' := by
  show andThen p f s = _ ↔ _
  unfold andThen Yields
  rcases p s with ⟨_ | a, s'⟩
  · simp
  · constructor
    · intro h
      exact ⟨a, s', rfl, h⟩
    · rintro ⟨a', s₁, hy, h⟩
      obtain ⟨ha, rfl⟩ := Prod.mk.inj hy
      obtain rfl : a = a' := Except.ok.inj ha
      exact h

theorem Yields.inj {s t u : σ} {a b : α} (h : Yields p s a t) (h' : Yields p s b u) :
    a = b ∧ t = u := by
  obtain ⟨hok, rfl⟩ := Prod.mk.inj ((show p s = _ from h).symm.trans h')
  exact ⟨Except.ok.inj hok, rfl⟩

theorem stops_after {s s' : σ} {a : α} (h : Yields p s a s') :
    Stops (p >>= f) s e ↔ Stops (f a) s' e := by
  show (andThen p f s).1 = _ ↔ _
  unfold andThen
  rw [show p s = _ from h]
  exact Iff.rfl

theorem Never.bind (hp : Never p e) (hf : ∀ a, Never (f a) e) : Never (p >>= f) e := by
  intro s h
  rcases stops_bind.mp h with h | ⟨a, s', -, h⟩
  · exact hp s h
  · exact hf a s' h

theorem Always.never (h : Always p) (e : ε) : Never p e := by
  intro s hs
  obtain ⟨a, s', hy⟩ := h s
  unfold Stops at hs
  rw [show p s = _ from hy] at hs
  exact absurd hs (by simp)

theorem Always.bind (hp : Always p) (hf : ∀ a, Always (f a)) : Always (p >>= f) := by
  intro s
  obtain ⟨a, s', hy⟩ := hp s
  obtain ⟨b, s'', hy'⟩ := hf a s'
  exact ⟨b, s'', yields_bind.mpr ⟨a, s', hy, hy'⟩⟩

theorem Always.pure (a : α) : Always (pure a : Parse σ ε α) := fun s => ⟨a, s, rfl⟩

theorem Always.modify (f : σ → σ) : Always (modify f : Parse σ ε Unit) := fun s => ⟨(), f s, rfl⟩

theorem Never.stop {e' : ε} (h : e' ≠ e) : Never (stop e' : Parse σ ε α) e :=
  fun _ hs => h (Except.error.inj hs)

theorem Never.ite {q : Parse σ ε α} {c : Prop} [Decidable c] (hp : Never p e) (hq : Never q e) :
    Never (if c then p else q) e := by
  split
  · exact hp
  · exact hq

theorem Always.ite {q : Parse σ ε α} {c : Prop} [Decidable c] (hp : Always p) (hq : Always q) :
    Always (if c then p else q) := by
  split
  · exact hp
  · exact hq

theorem Never.when {p : Parse σ ε Unit} (c : Bool) (hp : Never p e) : Never (when c p) e :=
  hp.ite ((Always.pure ()).never e)

theorem Always.when {p : Parse σ ε Unit} (c : Bool) (hp : Always p) : Always (when c p) :=
  hp.ite (Always.pure ())

/-! ## Weakest preconditions -/

section Wp

variable {s s' : σ} {e : ε} {Q : α → σ → Prop}

/-- `p` does not stop with `e`, and `Q` holds of what it yields. -/
def wp (e : ε) (p : Parse σ ε α) (Q : α → σ → Prop) (s : σ) : Prop :=
  match p s with
  | (.ok a, s') => Q a s'
  | (.error e', _) => e' ≠ e

variable {p : Parse σ ε α}

theorem wp_bind {R : β → σ → Prop} : wp e (p >>= f) R s ↔ wp e p (fun a => wp e (f a) R) s := by
  show (match andThen p f s with
    | (.ok a, s') => R a s'
    | (.error e', _) => e' ≠ e) ↔ _
  unfold andThen wp
  rcases p s with ⟨_ | a, s'⟩
  · exact Iff.rfl
  · exact Iff.rfl

theorem wp_pure (a : α) : wp e (pure a) Q s ↔ Q a s := Iff.rfl

theorem wp_yields {a : α} (h : Yields p s a s') : wp e p Q s ↔ Q a s' := by
  unfold wp
  rw [show p s = _ from h]

theorem Stops.not_wp (h : Stops p s e) : ¬ wp e p Q s := by
  unfold Stops at h
  unfold wp
  rw [show p s = (.error e, (p s).2) from Prod.ext h rfl]
  exact fun hne => hne rfl

theorem not_stops_iff : ¬ Stops p s e ↔ wp e p (fun _ _ => True) s := by
  unfold Stops wp
  rcases p s with ⟨e' | a, s'⟩
  · exact not_congr ⟨Except.error.inj, congrArg _⟩
  · exact iff_of_true (fun h => nomatch h) trivial

theorem Never.wp (h : Never p e) : wp e p (fun _ _ => True) s :=
  not_stops_iff.mp (h s)

end Wp

/-! ## What stays -/

section Keeps

variable {P : σ → Prop}

theorem Keeps.bind (hp : Keeps P p) (hf : ∀ a, Keeps P (f a)) : Keeps P (p >>= f) := by
  intro s b s'' hs h
  obtain ⟨a, s', hy, hy'⟩ := yields_bind.mp h
  exact hf a s' b s'' (hp s a s' hs hy) hy'

theorem Keeps.pure (a : α) : Keeps P (pure a : Parse σ ε α) := by
  intro s b s' hs h
  obtain ⟨-, rfl⟩ := Prod.mk.inj (show (Except.ok a, s) = (Except.ok b, s') from h)
  exact hs

theorem Keeps.modify {f : σ → σ} (hf : ∀ s, P s → P (f s)) :
    Keeps P (modify f : Parse σ ε Unit) := by
  intro s b s' hs h
  obtain ⟨-, rfl⟩ := Prod.mk.inj (show (Except.ok (), f s) = (Except.ok b, s') from h)
  exact hf s hs

theorem Keeps.stop (e : ε) : Keeps P (stop e : Parse σ ε α) := by
  intro s b s' _ h
  exact absurd (congrArg Prod.fst (show (Except.error e, s) = (Except.ok b, s') from h)) (by simp)

theorem Keeps.ite {q : Parse σ ε α} {c : Prop} [Decidable c] (hp : Keeps P p) (hq : Keeps P q) :
    Keeps P (if c then p else q) := by
  split
  · exact hp
  · exact hq

theorem Keeps.when {p : Parse σ ε Unit} (c : Bool) (hp : Keeps P p) : Keeps P (when c p) :=
  hp.ite (Keeps.pure ())

theorem Keeps.forFrom {body : Nat → Parse σ ε Unit} (h : ∀ i, Keeps P (body i)) {passes : Nat} :
    ∀ {i : Nat}, Keeps P (forFrom body passes i) := by
  induction passes with
  | zero => intro i; exact Keeps.pure ()
  | succ passes ih =>
    intro i
    exact (h i).bind fun _ => ih

end Keeps

/-! ## Loops -/

theorem stops_forFrom {body : Nat → Parse σ ε Unit} {n : Nat}
    (hbefore : ∀ j, j < n → Always (body j)) (hstop : ∀ s, Stops (body n) s e) {passes : Nat} :
    ∀ {i : Nat} {s : σ}, i ≤ n → n < i + passes → Stops (forFrom body passes i) s e := by
  induction passes with
  | zero => intro i s hi hn; omega
  | succ passes ih =>
    intro i s hi hn
    rcases Nat.lt_or_eq_of_le hi with hlt | rfl
    · obtain ⟨a, s', hy⟩ := hbefore i hlt s
      exact (stops_after hy).mpr (ih hlt (by omega))
    · exact stops_bind.mpr (.inl (hstop s))

/-- What each pass of a loop over all indices takes on to the next, the loop takes
from the first to behind the last. -/
theorem yields_forM_finRange {k : Nat} {body : Fin k → Parse σ ε Unit} {I : Nat → σ → Prop}
    (hstep : ∀ (i : Fin k) s t, I i s → Yields (body i) s () t → I (i + 1) t) {s t : σ}
    (hs : I 0 s) (h : Yields ((List.finRange k).forM body) s () t) : I k t := by
  have hrest : ∀ rest i, i + rest = k → ∀ s, I i s →
      Yields (((List.finRange k).drop i).forM body) s () t → I k t := by
    intro rest
    induction rest with
    | zero =>
      intro i hi s hs h
      rw [List.drop_of_length_le (by simp; omega)] at h
      obtain ⟨-, rfl⟩ := Prod.mk.inj (show (Except.ok (), s) = (Except.ok (), t) from h)
      obtain rfl : i = k := hi
      exact hs
    | succ rest ih =>
      intro i hi s hs h
      rw [List.drop_eq_getElem_cons (by simp; omega)] at h
      obtain ⟨_, s', hbody, h⟩ := yields_bind.mp h
      refine ih (i + 1) (by omega) s' ?_ h
      exact hstep ⟨i, by omega⟩ s s' hs (by simpa using hbody)
  exact hrest k 0 (by omega) s hs h

end Parse

end Duckbox.Lib
