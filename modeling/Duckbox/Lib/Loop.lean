/-!
# Counted loops and runs

Two ways a program takes step after step, each with the one induction it needs.

`forUpTo f s n` is `for( i=0; i<n; i++ ) s = f( s, i )` as a structural
recursion on the bound: what holds before the first pass and is carried from
pass `k` to pass `k + 1` holds after the last (`forUpTo_inv`).

`run step s ops` is a component driven by a list of operations, any of which
the component (or the contract of its caller) may refuse with `none`: an
invariant every accepted step keeps holds at the end of every run (`run_inv`).
Where nothing is refused a run is a `foldl`, and what a step needs is asked of
every operation in the state it finds (`Along`, `foldl_inv`, and
`forall_prefix_iff_along` where that is asked for no more than is needed).

`drain pop body` is `while( NonEmpty ) { Pop; body }`: a loop that takes one
element off a container in each pass, its invariant indexed by what the
container still holds (`drain_inv`).
-/

namespace Duckbox.Lib

variable {σ α : Type}

/-! ## Counted loops -/

/-- The state after the passes `0, …, n - 1` of a counted loop. -/
def forUpTo (f : σ → Nat → σ) (s : σ) : Nat → σ
  | 0 => s
  | k + 1 => f (forUpTo f s k) k

@[simp] theorem forUpTo_zero (f : σ → Nat → σ) (s : σ) : forUpTo f s 0 = s := rfl

@[simp] theorem forUpTo_succ (f : σ → Nat → σ) (s : σ) (k : Nat) :
    forUpTo f s (k + 1) = f (forUpTo f s k) k := rfl

/-- The loop invariant rule. -/
theorem forUpTo_inv {f : σ → Nat → σ} {s : σ} {P : Nat → σ → Prop} {n : Nat} (h0 : P 0 s)
    (hstep : ∀ k t, k < n → P k t → P (k + 1) (f t k)) : P n (forUpTo f s n) := by
  have hall : ∀ k, k ≤ n → P k (forUpTo f s k) := by
    intro k
    induction k with
    | zero => intro _; exact h0
    | succ k ih => intro hk; exact hstep k _ hk (ih (Nat.le_of_lt hk))
  exact hall n (Nat.le_refl n)

/-! ## Runs -/

/-- The state after a list of operations, `none` from the first one refused. -/
def run (step : σ → α → Option σ) : σ → List α → Option σ
  | s, [] => some s
  | s, op :: ops => (step s op).bind (run step · ops)

@[simp] theorem run_nil (step : σ → α → Option σ) (s : σ) : run step s [] = some s := rfl

@[simp] theorem run_cons (step : σ → α → Option σ) (s : σ) (op : α) (ops : List α) :
    run step s (op :: ops) = (step s op).bind (run step · ops) := rfl

theorem run_append (step : σ → α → Option σ) (s : σ) (ops ops' : List α) :
    run step s (ops ++ ops') = (run step s ops).bind (run step · ops') := by
  induction ops generalizing s with
  | nil => rfl
  | cons op ops ih =>
    rw [List.cons_append, run_cons, run_cons, Option.bind_assoc]
    exact congrArg _ (funext ih)

theorem run_concat (step : σ → α → Option σ) (s : σ) (ops : List α) (op : α) :
    run step s (ops ++ [op]) = (run step s ops).bind (step · op) := by
  rw [run_append]
  exact congrArg _ (funext fun t => Option.bind_fun_some (step t op))

variable {step : σ → α → Option σ} {P : σ → Prop}

/-- What every accepted step keeps holds at the end of every run. -/
theorem run_inv (hstep : ∀ {s op s'}, step s op = some s' → P s → P s') :
    ∀ {ops : List α} {s s' : σ}, run step s ops = some s' → P s → P s'
  | [], s, s', h, hs => by
    obtain rfl : s = s' := by simpa using h
    exact hs
  | op :: ops, s, s', h, hs => by
    obtain ⟨t, ht, hrest⟩ := Option.bind_eq_some_iff.mp h
    exact run_inv hstep hrest (hstep ht hs)

/-- Every operation of a list meets `ok` in the state it finds, as far as the
operations before it return one. -/
def Admits (step : σ → α → Option σ) (ok : σ → α → Prop) : σ → List α → Prop
  | _, [] => True
  | s, op :: ops => ok s op ∧ ∀ t, step s op = some t → Admits step ok t ops

variable {ok : σ → α → Prop} {ops : List α}

theorem run_of_admits (hstep : ∀ {s op}, ok s op → P s → ∃ t, step s op = some t ∧ P t) :
    ∀ {s : σ}, Admits step ok s ops → P s → ∃ t, run step s ops = some t ∧ P t := by
  induction ops with
  | nil => intro s _ hs; exact ⟨s, rfl, hs⟩
  | cons op ops ih =>
    intro s h hs
    obtain ⟨t, ht, hpt⟩ := hstep h.1 hs
    obtain ⟨u, hu, hpu⟩ := ih (h.2 t ht) hpt
    refine ⟨u, ?_, hpu⟩
    rw [run_cons, ht]
    exact hu

theorem run_inv_of_admits (hstep : ∀ {s op t}, ok s op → step s op = some t → P s → P t) :
    ∀ {s t : σ}, Admits step ok s ops → run step s ops = some t → P s → P t := by
  induction ops with
  | nil =>
    intro s t _ ht hs
    obtain rfl : s = t := Option.some.inj ht
    exact hs
  | cons op ops ih =>
    intro s t h ht hs
    obtain ⟨u, hu, hrest⟩ := Option.bind_eq_some_iff.mp ht
    exact ih (h.2 u hu) hrest (hstep h.1 hu hs)

/-- Where `ok` decides whether a step returns and keeps what cannot be got back, a run
keeps it if and only if every step is `ok`. -/
theorem run_iff_admits (hstep : ∀ {s op}, P s → ((∃ t, step s op = some t ∧ P t) ↔ ok s op))
    (hback : ∀ {s op t}, step s op = some t → P t → P s) :
    ∀ {s : σ}, P s → ((∃ t, run step s ops = some t ∧ P t) ↔ Admits step ok s ops) := by
  induction ops with
  | nil => exact fun {s} hs => iff_of_true ⟨s, rfl, hs⟩ trivial
  | cons op ops ih =>
    refine fun {s} hs => ⟨fun ⟨u, hrun, hu⟩ => ?_, fun h => run_of_admits (fun h hp =>
      (hstep hp).mpr h) h hs⟩
    obtain ⟨t, ht, hrest⟩ := Option.bind_eq_some_iff.mp hrun
    have hpt : P t := Classical.byContradiction fun hlost =>
      run_inv (P := fun s => ¬ P s) (fun h hs hpt => hs (hback h hpt)) hrest hlost hu
    refine ⟨(hstep hs).mp ⟨t, ht, hpt⟩, fun t' ht' => ?_⟩
    obtain rfl := Option.some.inj (ht.symm.trans ht')
    exact (ih hpt).mp ⟨u, hrest, hu⟩

/-- Where the invariant holds of whatever a step returns and `ok` decides whether it
returns, so does "every step is `ok`" decide whether a run does. -/
theorem run_returns_iff_admits (hstep : ∀ {s op}, P s → ((∃ t, step s op = some t) ↔ ok s op))
    (hkeep : ∀ {s op t}, step s op = some t → P s → P t) :
    ∀ {s : σ}, P s → ((∃ t, run step s ops = some t) ↔ Admits step ok s ops) := by
  induction ops with
  | nil => exact fun {s} _ => iff_of_true ⟨s, rfl⟩ trivial
  | cons op ops ih =>
    intro s hs
    constructor
    · rintro ⟨u, hrun⟩
      obtain ⟨t, ht, hrest⟩ := Option.bind_eq_some_iff.mp hrun
      refine ⟨(hstep hs).mp ⟨t, ht⟩, fun t' ht' => ?_⟩
      obtain rfl := Option.some.inj (ht.symm.trans ht')
      exact (ih (hkeep ht hs)).mp ⟨u, hrest⟩
    · rintro ⟨hok, hall⟩
      obtain ⟨t, ht⟩ := (hstep hs).mpr hok
      obtain ⟨u, hu⟩ := (ih (hkeep ht hs)).mpr (hall t ht)
      exact ⟨u, Option.bind_eq_some_iff.mpr ⟨t, ht, hu⟩⟩

instance Admits.decidable {step : σ → α → Option σ} {ok : σ → α → Prop}
    [∀ s op, Decidable (ok s op)] : ∀ (s : σ) (ops : List α), Decidable (Admits step ok s ops)
  | _, [] => inferInstanceAs (Decidable True)
  | s, op :: ops =>
    have : ∀ t, Decidable (Admits step ok t ops) := fun t => Admits.decidable t ops
    inferInstanceAs (Decidable (ok s op ∧ ∀ t, step s op = some t → Admits step ok t ops))

/-- Every operation of a list meets `ok` in the state it is applied to. -/
def Along (step : σ → α → σ) (ok : σ → α → Prop) : σ → List α → Prop
  | _, [] => True
  | s, op :: ops => ok s op ∧ Along step ok (step s op) ops

instance Along.decidable {step : σ → α → σ} {ok : σ → α → Prop} [∀ s op, Decidable (ok s op)] :
    ∀ (s : σ) (ops : List α), Decidable (Along step ok s ops)
  | _, [] => inferInstanceAs (Decidable True)
  | s, op :: ops =>
    have : Decidable (Along step ok (step s op) ops) := Along.decidable (step s op) ops
    inferInstanceAs (Decidable (ok s op ∧ Along step ok (step s op) ops))

theorem Along.of_forall {step : σ → α → σ} {ok : α → Prop} :
    ∀ {s : σ}, (∀ op ∈ ops, ok op) → Along step (fun _ op => ok op) s ops := by
  induction ops with
  | nil => intro _ _; trivial
  | cons op ops ih =>
    intro s h
    exact ⟨h op List.mem_cons_self, ih fun op' hmem => h op' (List.mem_cons_of_mem _ hmem)⟩

theorem along_append {step : σ → α → σ} {ops' : List α} :
    ∀ {s : σ}, Along step ok s (ops ++ ops') ↔
      Along step ok s ops ∧ Along step ok (ops.foldl step s) ops' := by
  induction ops with
  | nil => exact (iff_of_eq (true_and _)).symm
  | cons op ops ih => exact (and_congr_right fun _ => ih).trans and_assoc.symm

theorem Along.and {step : σ → α → σ} {ok' : σ → α → Prop} :
    ∀ {s : σ}, Along step ok s ops → Along step ok' s ops →
      Along step (fun s op => ok s op ∧ ok' s op) s ops := by
  induction ops with
  | nil => intro _ _ _; trivial
  | cons op ops ih => intro s h h'; exact ⟨⟨h.1, h'.1⟩, ih h.2 h'.2⟩

/-- What a step keeps where it is `ok` holds at the end of a run that is. -/
theorem foldl_inv {step : σ → α → σ} (hstep : ∀ {s op}, ok s op → P s → P (step s op))
    (ops : List α) : ∀ {s : σ}, Along step ok s ops → P s → P (ops.foldl step s) := by
  induction ops with
  | nil => intro s _ hs; exact hs
  | cons op ops ih => intro s h hs; exact ih h.2 (hstep h.1 hs)

/-- What holds of every step from a state with the invariant holds along a run that
keeps it. -/
theorem Along.of_inv {step : σ → α → σ} {Q : σ → α → Prop}
    (hstep : ∀ {s op}, ok s op → P s → P (step s op)) (hq : ∀ {s} op, P s → Q s op) :
    ∀ {s : σ}, Along step ok s ops → P s → Along step Q s ops := by
  induction ops with
  | nil => intro s _ _; trivial
  | cons op ops ih => intro s h hs; exact ⟨hq op hs, ih h.2 (hstep h.1 hs)⟩

theorem Along.of_step {step : σ → α → σ} {Q : σ → α → Prop}
    (hstep : ∀ {s op}, ok s op → P s → P (step s op) ∧ Q s op) :
    ∀ {s : σ}, Along step ok s ops → P s → Along step Q s ops := by
  induction ops with
  | nil => intro s _ _; trivial
  | cons op ops ih =>
    intro s h hs
    obtain ⟨hnext, hq⟩ := hstep h.1 hs
    exact ⟨hq, ih h.2 hnext⟩

/-- Where a step keeps `P` exactly if it is `ok`, every state of a run has `P` exactly
if every step of it is. -/
theorem forall_prefix_iff_along {step : σ → α → σ} {I : σ → Prop}
    (hI : ∀ {s} op, I s → I (step s op)) (hstep : ∀ {s} op, I s → P s → (P (step s op) ↔ ok s op))
    (ops : List α) :
    ∀ {s : σ}, I s → P s → ((∀ pre, pre <+: ops → P (pre.foldl step s)) ↔ Along step ok s ops) := by
  induction ops with
  | nil =>
    intro s _ hs
    refine iff_of_true (fun pre hpre => ?_) trivial
    rw [List.prefix_nil.mp hpre]
    exact hs
  | cons op ops ih =>
    intro s hi hs
    constructor
    · intro h
      have hnext : P (step s op) := h [op] (by simp)
      refine ⟨(hstep op hi hs).mp hnext, (ih (hI op hi) hnext).mp fun pre hpre => ?_⟩
      exact h (op :: pre) (List.prefix_cons_inj op |>.mpr hpre)
    · intro h pre hpre
      have hnext : P (step s op) := (hstep op hi hs).mpr h.1
      cases pre with
      | nil => exact hs
      | cons first rest =>
        obtain ⟨rfl, hrest⟩ := List.cons_prefix_cons.mp hpre
        exact (ih (hI first hi) hnext).mpr h.2 rest hrest

/-- A run and all that it begins with come to what a fold says, exactly where every step
does. -/
theorem run_eq_foldl_iff_along {f : σ → α → σ} :
    ∀ {s : σ}, (∀ pre, pre <+: ops → run step s pre = some (pre.foldl f s)) ↔
      Along f (fun s op => step s op = some (f s op)) s ops := by
  induction ops with
  | nil =>
    intro s
    refine iff_of_true (fun pre hpre => ?_) trivial
    rw [List.prefix_nil.mp hpre]
    rfl
  | cons op ops ih =>
    intro s
    constructor
    · intro h
      have hfirst : step s op = some (f s op) := by
        have := h [op] (by simp)
        rw [run_cons] at this
        obtain ⟨t, ht, hrest⟩ := Option.bind_eq_some_iff.mp this
        rw [ht]
        exact hrest
      refine ⟨hfirst, ih.mp fun pre hpre => ?_⟩
      have := h (op :: pre) (List.prefix_cons_inj op |>.mpr hpre)
      rwa [run_cons, hfirst] at this
    · rintro ⟨hfirst, hrest⟩ pre hpre
      cases pre with
      | nil => rfl
      | cons first rest =>
        obtain ⟨rfl, hbegins⟩ := List.cons_prefix_cons.mp hpre
        rw [run_cons, hfirst]
        exact ih.mpr hrest rest hbegins

/-! ## Loops that empty a container -/

/-- The state after at most so many passes of a loop that ends when there is
nothing to take. -/
def drain (pop : σ → Option (α × σ)) (body : α → σ → σ) : Nat → σ → σ
  | 0, s => s
  | k + 1, s =>
    match pop s with
    | none => s
    | some (a, t) => drain pop body k (body a t)

/-- With a pass for every element the container is emptied. The elements may be
read off a list `l` that says more of them. -/
theorem drain_inv {β : Type} (pop : σ → Option (α × σ)) (body : α → σ → σ) (f : β → α)
    {P : List β → σ → Prop}
    (hcons : ∀ b rest s, P (b :: rest) s → ∃ t, pop s = some (f b, t) ∧ P rest (body (f b) t))
    (l : List β) : ∀ {s : σ}, P l s → P [] (drain pop body l.length s) := by
  induction l with
  | nil => intro s h; exact h
  | cons b rest ih =>
    intro s h
    obtain ⟨t, ht, hrest⟩ := hcons b rest s h
    rw [List.length_cons, drain, ht]
    exact ih hrest

end Duckbox.Lib
