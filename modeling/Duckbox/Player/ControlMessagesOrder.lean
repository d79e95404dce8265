import Duckbox.Player.ControlMessages

/-!
# In sequence control messages: once, and in order

What one scan performs and leaves (`processAccumulatedControlMessages_spec`), and
what a stored message adds (`accumulateControlMessage_spec`), as lists of what
waits in a table. On these lists the accounts of the messages are kept
(`Accounts.scan`, `Accounts.store`, `Accounts.perform`): what waits stands in the
order of issue, as long as a message is stored behind all that wait, and a
message that waits was issued after those of the same point that have been
performed.
-/

namespace Duckbox.Player

open Duckbox.Lib

variable {n : Nat}

/-! ## One table -/

namespace MessageTable

variable {t u : MessageTable n} {sequenceNumber time : Nat}

theorem waiting_empty : (empty : MessageTable n).waiting = [] := contents_empty

theorem counted_scanSlot {performed : List Message} (h : t.Counted) (i : Fin n) :
    (scanSlot sequenceNumber time (performed, t) i).2.Counted := by
  unfold scanSlot
  split
  · exact h
  · next m hm =>
    split
    · have hclear := (contents_clear hm).length_eq
      unfold Counted waiting at h ⊢
      rw [List.length_cons, ← h] at hclear
      exact Nat.sub_eq_of_eq_add hclear
    · exact h

theorem foldl_scanSlot (slots : List (Fin n)) : ∀ {performed : List Message} {t : MessageTable n},
    slots.Nodup → t.Counted →
    let r := slots.foldl (scanSlot sequenceNumber time) (performed, t)
    r.1 = performed ++ (slots.filterMap t.entries).filter (·.processNow sequenceNumber time) ∧
      (∀ i, r.2.entries i = if i ∈ slots then
        (t.entries i).filter fun m => !m.processNow sequenceNumber time else t.entries i) ∧
      r.2.Counted := by
  induction slots with
  | nil =>
    intro performed t _ h
    exact ⟨(List.append_nil _).symm, fun i => (if_neg List.not_mem_nil).symm, h⟩
  | cons i slots ih =>
    intro performed t hnodup h
    obtain ⟨hi, hrest⟩ := List.nodup_cons.mp hnodup
    have hone : (scanSlot sequenceNumber time (performed, t) i).2.Counted := counted_scanSlot h i
    obtain ⟨hperformed, hentries, hcounted⟩ :=
      @ih (scanSlot sequenceNumber time (performed, t) i).1 _ hrest hone
    -- the slots behind this one are as they were
    have hslot : ∀ j, j ≠ i →
        (scanSlot sequenceNumber time (performed, t) i).2.entries j = t.entries j := by
      intro j hj
      unfold scanSlot
      split
      · rfl
      · split
        · exact Function.update_of_ne hj _ _
        · rfl
    have hbehind : slots.filterMap (scanSlot sequenceNumber time (performed, t) i).2.entries
        = slots.filterMap t.entries :=
      List.filterMap_congr fun j hj => hslot j fun he => hi (he ▸ hj)
    refine ⟨?_, fun j => ?_, hcounted⟩
    · rw [List.foldl_cons, hperformed, hbehind]
      unfold scanSlot
      cases hm : t.entries i with
      | none => rw [List.filterMap_cons, hm]
      | some m =>
        rw [List.filterMap_cons, hm]
        cases hnow : m.processNow sequenceNumber time with
        | true => simp [hnow]
        | false => simp [hnow]
    · rw [List.foldl_cons, hentries]
      by_cases hj : j = i
      · subst hj
        rw [if_neg hi, if_pos List.mem_cons_self]
        unfold scanSlot
        cases hm : t.entries j with
        | none => simp [hm]
        | some m =>
          cases hnow : m.processNow sequenceNumber time with
          | true => simp [hnow, Option.filter]
          | false => simp [hnow, hm, Option.filter]
      · rw [hslot j hj]
        simp [hj]

theorem processAccumulatedControlMessages_spec (h : t.Counted) (sequenceNumber time : Nat) :
    let r := t.processAccumulatedControlMessages sequenceNumber time
    r.1 = t.waiting.filter (·.processNow sequenceNumber time) ∧
      r.2.waiting = t.waiting.filter (fun m => !m.processNow sequenceNumber time) ∧
      r.2.Counted := by
  unfold processAccumulatedControlMessages
  split
  · next hnone =>
    have hempty : t.waiting = [] := List.length_eq_zero_iff.mp (h.symm.trans hnone)
    simp only [hempty]
    exact ⟨rfl, rfl, h⟩
  · obtain ⟨hperformed, hentries, hcounted⟩ :=
      @foldl_scanSlot n sequenceNumber time (List.finRange n) [] t (List.nodup_finRange n) h
    refine ⟨by rw [hperformed]; rfl, ?_, hcounted⟩
    unfold waiting
    rw [← contents_filter]
    congr 1
    funext i
    rw [hentries, if_pos (List.mem_finRange i)]

theorem accumulateControlMessage_spec (h : t.Counted) (hbehind : t.Behind) (m : Message) :
    match t.accumulateControlMessage m with
    | some u => u.waiting = t.waiting ++ [m] ∧ u.Counted
    | none => t.waiting.length = n := by
  unfold accumulateControlMessage
  cases hfree : firstFree t.entries with
  | some i =>
    have hlast := contents_fill_last (hbehind i hfree) m
    refine ⟨hlast, ?_⟩
    have hlength := congrArg List.length hlast
    rw [List.length_append] at hlength
    unfold Counted waiting at h ⊢
    rw [h]
    exact hlength.symm
  | none =>
    refine Nat.le_antisymm (contents_length_le t.entries) (Nat.le_of_not_lt fun hlt => ?_)
    obtain ⟨i, hi⟩ := firstFree_isSome hlt
    exact absurd (hfree.symm.trans hi) (by simp)

end MessageTable

/-! ## The accounts -/

/-- What arrived and what became of it, the two tables as lists: `held true` waits
for the scan before a frame. -/
structure History where
  arrived : List Message
  performed : List Performed
  dropped : List Dropped
  moments : Nat
  held : Bool → List Message

/-- Two messages name the same point. -/
def Message.SameName (m m' : Message) : Prop :=
  m.sequenceType = m'.sequenceType ∧ m.sequenceValue = m'.sequenceValue

variable {m : Message}

theorem Message.SameName.due {m' : Message} (h : m.SameName m') {r : Reached} (hdue : m.Due r) :
    m'.Due r := by
  unfold Message.Due at *
  rwa [← h.1, ← h.2]

/-- Each message that arrived was performed, waits or was dropped; what waits, does so
in the order of issue, and behind what was performed at its point. -/
structure Accounts (n : Nat) (h : History) : Prop where
  once : (h.performed.map (·.message) ++ (h.held true ++ h.held false)
    ++ h.dropped.map (·.message)).Perm h.arrived
  distinct : h.arrived.Nodup
  issued : ∀ m ∈ h.arrived, m.issued < h.arrived.length
  overflow : ∀ d ∈ h.dropped, d.held = n
  moments : ∀ p ∈ h.performed, p.moment < h.moments
  reached : ∀ p ∈ h.performed, p.message.Due p.reached
  afterwards : ∀ p ∈ h.performed, p.phase = .beforeFrame →
    p.message.sequenceType.isBefore = true
  inOrder : h.performed.Pairwise fun later earlier =>
    later.SamePoint earlier → earlier.message.issued < later.message.issued
  side : ∀ b, ∀ m ∈ h.held b, m.sequenceType.isBefore = b
  sorted : ∀ b, (h.held b).Pairwise fun m m' => m.issued < m'.issued
  passed : ∀ p ∈ h.performed, ∀ b, ∀ m ∈ h.held b, p.message.SameName m →
    p.message.issued < m.issued

namespace Accounts

variable {h : History}

theorem arrived_of_performed (ha : Accounts n h) {p : Performed} (hp : p ∈ h.performed) :
    p.message ∈ h.arrived :=
  ha.once.subset (List.mem_append_left _ (List.mem_append_left _ (List.mem_map_of_mem hp)))

variable {m : Message}

theorem arrived_of_held (ha : Accounts n h) {b : Bool} (hm : m ∈ h.held b) : m ∈ h.arrived := by
  refine ha.once.subset (List.mem_append_left _ (List.mem_append_right _ ?_))
  cases b with
  | true => exact List.mem_append_left _ hm
  | false => exact List.mem_append_right _ hm

theorem scan (ha : Accounts n h) (b : Bool) {due : Message → Bool} {phase : Phase}
    {reached : Reached} (hname : ∀ {m m' : Message}, m.SameName m' → due m = due m')
    (hdue : ∀ m ∈ h.held b, due m = true → m.Due reached)
    (hphase : phase = .beforeFrame → b = true) :
    Accounts n { h with
      held := Function.update h.held b ((h.held b).filter fun m => !due m)
      performed := (((h.held b).filter due).map fun m => ⟨m, h.moments, phase, reached⟩).reverse
        ++ h.performed
      moments := h.moments + 1 } := by
  -- what is performed now
  have hnew : ∀ {p : Performed}, p ∈ (((h.held b).filter due).map fun m =>
      (⟨m, h.moments, phase, reached⟩ : Performed)).reverse →
      p.message ∈ h.held b ∧ due p.message = true ∧ p.moment = h.moments ∧ p.phase = phase ∧
        p.reached = reached := by
    intro p hp
    obtain ⟨m, hm, rfl⟩ := List.mem_map.mp (List.mem_reverse.mp hp)
    exact ⟨List.mem_of_mem_filter hm, List.of_mem_filter hm, rfl, rfl, rfl⟩
  -- what is left was there
  have hleft : ∀ {c : Bool} {m : Message},
      m ∈ Function.update h.held b ((h.held b).filter fun m => !due m) c →
        m ∈ h.held c ∧ (c = b → due m = false) := by
    intro c m hm
    by_cases hc : c = b
    · subst hc
      rw [Function.update_self] at hm
      have hnot := List.of_mem_filter hm
      exact ⟨List.mem_of_mem_filter hm, fun _ => by simpa using hnot⟩
    · rw [Function.update_of_ne hc] at hm
      exact ⟨hm, fun he => absurd he hc⟩
  have hsplit : (((h.held b).filter due).reverse ++ (h.held b).filter fun m => !due m).Perm
      (h.held b) :=
    ((List.reverse_perm _).append_right _).trans (List.filter_append_perm due (h.held b))
  refine ⟨?_, ha.distinct, ha.issued, ha.overflow, ?_, ?_, ?_, ?_, ?_, ?_, ?_⟩
  · refine List.Perm.trans ?_ ha.once
    refine List.Perm.append_right _ ?_
    have hmessages : ((((h.held b).filter due).map fun m =>
        (⟨m, h.moments, phase, reached⟩ : Performed)).reverse ++ h.performed).map (·.message)
        = ((h.held b).filter due).reverse ++ h.performed.map (·.message) := by
      simp [Function.comp_def]
    dsimp only
    rw [hmessages, List.perm_iff_count]
    intro m
    have hcount := hsplit.count_eq m
    cases b with
    | true =>
      rw [Function.update_self, Function.update_of_ne (by decide)]
      simp only [List.count_append] at hcount ⊢
      omega
    | false =>
      rw [Function.update_self, Function.update_of_ne (by decide)]
      simp only [List.count_append] at hcount ⊢
      omega
  · intro p hp
    rcases List.mem_append.mp hp with hnow | hold
    · obtain ⟨-, -, hmoment, -⟩ := hnew hnow
      rw [hmoment]
      exact Nat.lt_succ_self _
    · exact Nat.lt_succ_of_lt (ha.moments p hold)
  · intro p hp
    rcases List.mem_append.mp hp with hnow | hold
    · obtain ⟨hheld, hdue', -, -, hreached⟩ := hnew hnow
      rw [hreached]
      exact hdue _ hheld hdue'
    · exact ha.reached p hold
  · intro p hp hbefore
    rcases List.mem_append.mp hp with hnow | hold
    · obtain ⟨hheld, -, -, hnowPhase, -⟩ := hnew hnow
      rw [ha.side b _ hheld]
      exact hphase (hnowPhase.symm.trans hbefore)
    · exact ha.afterwards p hold hbefore
  · refine List.pairwise_append.mpr ⟨?_, ha.inOrder, ?_⟩
    · rw [List.pairwise_reverse, List.pairwise_map]
      refine ((ha.sorted b).sublist List.filter_sublist).imp ?_
      intro m m' hlt _
      exact hlt
    · intro p hp q hq hsame
      obtain ⟨hheld, -, hmoment, -⟩ := hnew hp
      rcases hsame with hmoments | hnames
      · have hearlier := ha.moments q hq
        omega
      · exact ha.passed q hq b _ hheld ⟨hnames.1.symm, hnames.2.symm⟩
  · intro c m hm
    exact ha.side c m (hleft hm).1
  · intro c
    by_cases hc : c = b
    · subst hc
      dsimp only
      rw [Function.update_self]
      exact (ha.sorted c).sublist List.filter_sublist
    · dsimp only
      rw [Function.update_of_ne hc]
      exact ha.sorted c
  · intro p hp c m hm hsame
    obtain ⟨hheld, hstays⟩ := hleft hm
    rcases List.mem_append.mp hp with hnow | hold
    · -- a message of the same name is in the same table, and was due
      obtain ⟨hheldp, hduep, -⟩ := hnew hnow
      have hside : c = b := by
        rw [← ha.side c m hheld, ← hsame.1, ha.side b _ hheldp]
      have hdueq := hstays hside
      rw [← hname hsame, hduep] at hdueq
      exact absurd hdueq (by decide)
    · exact ha.passed p hold c m hheld hsame

theorem issued_cons (ha : Accounts n h) (hm : m.issued = h.arrived.length) :
    (m :: h.arrived).Nodup ∧ ∀ q ∈ m :: h.arrived, q.issued < (m :: h.arrived).length := by
  constructor
  · refine List.nodup_cons.mpr ⟨fun hin => ?_, ha.distinct⟩
    have hlt := ha.issued m hin
    omega
  · intro q hq
    rw [List.length_cons]
    rcases List.mem_cons.mp hq with rfl | hold
    · omega
    · exact Nat.lt_succ_of_lt (ha.issued q hold)

theorem store (ha : Accounts n h) (hm : m.issued = h.arrived.length) :
    Accounts n { h with
      arrived := m :: h.arrived
      held := Function.update h.held m.sequenceType.isBefore
        (h.held m.sequenceType.isBefore ++ [m]) } := by
  obtain ⟨hdistinct, hissued⟩ := ha.issued_cons hm
  have hheld : ∀ {c : Bool} {q : Message},
      q ∈ Function.update h.held m.sequenceType.isBefore
        (h.held m.sequenceType.isBefore ++ [m]) c →
        q ∈ h.held c ∨ q = m ∧ c = m.sequenceType.isBefore := by
    intro c q hq
    by_cases hc : c = m.sequenceType.isBefore
    · subst hc
      rw [Function.update_self] at hq
      rcases List.mem_append.mp hq with hold | hnew
      · exact .inl hold
      · exact .inr ⟨List.mem_singleton.mp hnew, rfl⟩
    · rw [Function.update_of_ne hc] at hq
      exact .inl hq
  refine ⟨?_, hdistinct, hissued, ha.overflow, ha.moments, ha.reached, ha.afterwards,
    ha.inOrder, ?_, ?_, ?_⟩
  · refine List.Perm.trans ?_ (ha.once.cons m)
    rw [List.perm_iff_count]
    intro q
    dsimp only
    cases hside : m.sequenceType.isBefore with
    | true =>
      rw [Function.update_self, Function.update_of_ne (by decide)]
      simp only [List.count_append, List.count_cons, List.count_nil]
      omega
    | false =>
      rw [Function.update_self, Function.update_of_ne (by decide)]
      simp only [List.count_append, List.count_cons, List.count_nil]
      omega
  · intro c q hq
    rcases hheld hq with hold | ⟨rfl, rfl⟩
    · exact ha.side c q hold
    · rfl
  · intro c
    dsimp only
    by_cases hc : c = m.sequenceType.isBefore
    · subst hc
      rw [Function.update_self]
      refine List.pairwise_append.mpr ⟨ha.sorted _, List.pairwise_singleton _ _, ?_⟩
      intro q hq r hr
      rw [List.mem_singleton.mp hr, hm]
      exact ha.issued q (ha.arrived_of_held hq)
    · rw [Function.update_of_ne hc]
      exact ha.sorted c
  · intro p hp c q hq hsame
    rcases hheld hq with hold | ⟨rfl, -⟩
    · exact ha.passed p hp c q hold hsame
    · rw [hm]
      exact ha.issued _ (ha.arrived_of_performed hp)

theorem perform (ha : Accounts n h) (hm : m.issued = h.arrived.length) {reached : Reached}
    (hdue : m.Due reached) (hwaiting : ∀ b, ∀ q ∈ h.held b, ¬ q.Due reached) :
    Accounts n { h with
      arrived := m :: h.arrived
      performed := ⟨m, h.moments, .arrival, reached⟩ :: h.performed
      moments := h.moments + 1 } := by
  obtain ⟨hdistinct, hissued⟩ := ha.issued_cons hm
  refine ⟨ha.once.cons m, hdistinct, hissued, ha.overflow, ?_, ?_, ?_, ?_, ha.side, ha.sorted, ?_⟩
  · intro p hp
    rcases List.mem_cons.mp hp with rfl | hold
    · exact Nat.lt_succ_self _
    · exact Nat.lt_succ_of_lt (ha.moments p hold)
  · intro p hp
    rcases List.mem_cons.mp hp with rfl | hold
    · exact hdue
    · exact ha.reached p hold
  · intro p hp hbefore
    rcases List.mem_cons.mp hp with rfl | hold
    · exact absurd hbefore (by simp)
    · exact ha.afterwards p hold hbefore
  · refine List.pairwise_cons.mpr ⟨fun p hp _ => ?_, ha.inOrder⟩
    show p.message.issued < m.issued
    rw [hm]
    exact ha.issued _ (ha.arrived_of_performed hp)
  · intro p hp b q hq hsame
    rcases List.mem_cons.mp hp with rfl | hold
    · exact absurd (hsame.due hdue) (hwaiting b q hq)
    · exact ha.passed p hold b q hq hsame

theorem drop (ha : Accounts n h) (hm : m.issued = h.arrived.length) :
    Accounts n { h with
      arrived := m :: h.arrived
      dropped := ⟨m, n⟩ :: h.dropped } := by
  obtain ⟨hdistinct, hissued⟩ := ha.issued_cons hm
  refine ⟨List.perm_middle.trans (ha.once.cons m), hdistinct, hissued, ?_, ha.moments, ha.reached,
    ha.afterwards, ha.inOrder, ha.side, ha.sorted, ha.passed⟩
  intro d hd
  rcases List.mem_cons.mp hd with rfl | hold
  · rfl
  · exact ha.overflow d hold

end Accounts

/-! ## Both tables -/

namespace Message

theorem due_of_processNow {sequenceNumber time : Nat} (htime : time ≠ unspecifiedTime)
    (h : m.processNow sequenceNumber time = true) : m.Due (.of sequenceNumber time) := by
  unfold processNow at h
  unfold Due Reached.of
  cases hm : m.sequenceType <;> simp_all [SequenceType.sequenceCheck]

theorem processNow_of_due {sequenceNumber time : Nat} (hm : m.sequenceType ≠ .immediate)
    (h : m.Due (.of sequenceNumber time)) : m.processNow sequenceNumber time = true := by
  unfold Due Reached.of at h
  unfold processNow
  cases hm : m.sequenceType <;> simp_all [SequenceType.sequenceCheck]

theorem processNow_sameName {m' : Message} (h : m.SameName m') (sequenceNumber time : Nat) :
    m.processNow sequenceNumber time = m'.processNow sequenceNumber time := by
  unfold processNow
  rw [h.1, h.2]

end Message

namespace Control

/-- The tables as lists. -/
def history (c : Control n) : History where
  arrived := c.arrived
  performed := c.performed
  dropped := c.dropped
  moments := c.moments
  held b := if b then c.before.waiting else c.after.waiting

/-- What the processes keep. -/
structure Inv (c : Control n) : Prop where
  accounts : Accounts n c.history
  before : c.before.Counted
  after : c.after.Counted
  waiting : ∀ b, ∀ m ∈ c.history.held b, ¬ m.Due c.reached

variable {c : Control n}

theorem Inv.keepsSequence (hc : c.Inv) : c.InSequence where
  once := hc.accounts.once
  distinct := hc.accounts.distinct
  overflow := hc.accounts.overflow
  waiting := by
    intro m hm
    rcases List.mem_append.mp hm with hbefore | hafter
    · exact hc.waiting true m hbefore
    · exact hc.waiting false m hafter
  reached := hc.accounts.reached
  afterwards := hc.accounts.afterwards
  inOrder := hc.accounts.inOrder

theorem inv_started : (started : Control n).Inv := by
  have hheld : ∀ b, (started : Control n).history.held b = [] := by
    intro b
    cases b with
    | true => exact MessageTable.waiting_empty
    | false => exact MessageTable.waiting_empty
  have hnone : ∀ {b : Bool} {m : Message} {P : Prop},
      m ∈ (started : Control n).history.held b → P := by
    intro b m P hm
    rw [hheld] at hm
    exact absurd hm List.not_mem_nil
  have hcounted : (MessageTable.empty : MessageTable n).Counted := by
    unfold MessageTable.Counted
    rw [MessageTable.waiting_empty]
    rfl
  refine ⟨⟨?_, List.nodup_nil, fun m hm => absurd hm List.not_mem_nil,
    fun d hd => absurd hd List.not_mem_nil, fun p hp => absurd hp List.not_mem_nil,
    fun p hp => absurd hp List.not_mem_nil, fun p hp => absurd hp List.not_mem_nil,
    List.Pairwise.nil, fun b m hm => hnone hm, fun b => ?_,
    fun p hp => absurd hp List.not_mem_nil⟩, hcounted, hcounted, fun b m hm => hnone hm⟩
  · rw [hheld, hheld]
    exact List.Perm.refl _
  · rw [hheld]
    exact List.Pairwise.nil

theorem history_scan (hcounted : ∀ b : Bool, (if b then c.before else c.after).Counted)
    (sequenceNumber time : Nat) (phase : Phase) (b : Bool) :
    let scanned := (if b then c.before else c.after).processAccumulatedControlMessages
      sequenceNumber time
    let d := if b then { c with before := scanned.2 } else { c with after := scanned.2 }
    (d.perform phase scanned.1).history = { c.history with
      held := Function.update c.history.held b ((c.history.held b).filter fun m =>
        !m.processNow sequenceNumber time)
      performed := (((c.history.held b).filter (·.processNow sequenceNumber time)).map fun m =>
        ⟨m, c.history.moments, phase, c.reached⟩).reverse ++ c.history.performed
      moments := c.history.moments + 1 } := by
  obtain ⟨hperformed, hleft, -⟩ :=
    MessageTable.processAccumulatedControlMessages_spec (hcounted b) sequenceNumber time
  cases b with
  | true =>
    have hheld : (fun b => if b then
        (c.before.processAccumulatedControlMessages sequenceNumber time).2.waiting
        else c.after.waiting) = Function.update c.history.held true ((c.history.held true).filter
          fun m => !m.processNow sequenceNumber time) := by
      funext b
      cases b with
      | true => rw [Function.update_self]; exact hleft
      | false => rw [Function.update_of_ne (by decide)]; rfl
    have hperformed : (c.before.processAccumulatedControlMessages sequenceNumber time).1
        = (c.history.held true).filter (·.processNow sequenceNumber time) := hperformed
    rw [← hheld, ← hperformed]
    rfl
  | false =>
    have hheld : (fun b => if b then c.before.waiting else
        (c.after.processAccumulatedControlMessages sequenceNumber time).2.waiting)
        = Function.update c.history.held false ((c.history.held false).filter
          fun m => !m.processNow sequenceNumber time) := by
      funext b
      cases b with
      | true => rw [Function.update_of_ne (by decide)]; rfl
      | false => rw [Function.update_self]; exact hleft
    have hperformed : (c.after.processAccumulatedControlMessages sequenceNumber time).1
        = (c.history.held false).filter (·.processNow sequenceNumber time) := hperformed
    rw [← hheld, ← hperformed]
    rfl

theorem Inv.frame (hc : c.Inv) {sequenceNumber time : Nat} (htime : time ≠ unspecifiedTime) :
    (c.frame sequenceNumber time).Inv := by
  obtain ⟨-, hbeforeLeft, hbeforeCounted⟩ :=
    MessageTable.processAccumulatedControlMessages_spec hc.before sequenceNumber time
  obtain ⟨-, hafterLeft, hafterCounted⟩ :=
    MessageTable.processAccumulatedControlMessages_spec hc.after sequenceNumber time
  have hdue : ∀ m : Message, m.processNow sequenceNumber time = true →
      m.Due (.of sequenceNumber time) := fun m => Message.due_of_processNow htime
  have hname : ∀ {m m' : Message}, m.SameName m' →
      m.processNow sequenceNumber time = m'.processNow sequenceNumber time :=
    fun h => Message.processNow_sameName h sequenceNumber time
  refine ⟨?_, hbeforeCounted, hafterCounted, fun b m hm hreached => ?_⟩
  · -- the scan before the frame, then the one after it
    let d : Control n := { c with reached := .of sequenceNumber time }
    have hd : Accounts n d.history := hc.accounts
    let scanned := d.before.processAccumulatedControlMessages sequenceNumber time
    let e := { d with before := scanned.2 }.perform .beforeFrame scanned.1
    have he : Accounts n e.history := by
      rw [show e.history = _ from history_scan (c := d) (fun b => by
        cases b with
        | true => exact hc.before
        | false => exact hc.after) sequenceNumber time .beforeFrame true]
      exact hd.scan true hname (fun m _ => hdue m) fun _ => rfl
    rw [show (c.frame sequenceNumber time).history = _ from history_scan (c := e) (fun b => by
      cases b with
      | true => exact hbeforeCounted
      | false => exact hc.after) sequenceNumber time .afterFrame false]
    exact he.scan false hname (fun m _ => hdue m) fun h => absurd h (by decide)
  · have hold : m ∈ c.history.held b ∧ (!m.processNow sequenceNumber time) = true := by
      cases b with
      | true =>
        rw [show (c.frame sequenceNumber time).history.held true = _ from hbeforeLeft] at hm
        exact List.mem_filter.mp hm
      | false =>
        rw [show (c.frame sequenceNumber time).history.held false = _ from hafterLeft] at hm
        exact List.mem_filter.mp hm
    have hwaits := hc.waiting b m hold.1
    have htype : m.sequenceType ≠ .immediate := by
      intro himmediate
      unfold Message.Due at hwaits
      rw [himmediate] at hwaits
      exact hwaits trivial
    have hnot := hold.2
    rw [Message.processNow_of_due htype hreached] at hnot
    exact absurd hnot (by decide)

theorem Inv.store (hc : c.Inv) (hissued : m.issued = c.history.arrived.length)
    (hnotDue : ¬ m.Due c.reached) {d : Control n} (harrived : d.arrived = m :: c.arrived)
    (hrest : d.performed = c.performed ∧ d.dropped = c.dropped ∧ d.moments = c.moments ∧
      d.reached = c.reached)
    (hheld : ∀ b, d.history.held b = if b = m.sequenceType.isBefore then
      c.history.held b ++ [m] else c.history.held b)
    (hbefore : d.before.Counted) (hafter : d.after.Counted) : d.Inv := by
  obtain ⟨hperformed, hdropped, hmoments, hreached⟩ := hrest
  have hhistory : d.history = { c.history with
      arrived := m :: c.history.arrived
      held := Function.update c.history.held m.sequenceType.isBefore
        (c.history.held m.sequenceType.isBefore ++ [m]) } := by
    have hlists : d.history.held = Function.update c.history.held m.sequenceType.isBefore
        (c.history.held m.sequenceType.isBefore ++ [m]) := by
      funext b
      rw [hheld, Function.update_apply]
      split
      · next hb => rw [hb]
      · rfl
    rw [← hlists, show c.history.arrived = c.arrived from rfl, ← harrived]
    unfold history
    rw [hperformed, hdropped, hmoments]
  refine ⟨by rw [hhistory]; exact hc.accounts.store hissued, hbefore, hafter, ?_⟩
  intro b q hq
  rw [hheld] at hq
  rw [hreached]
  split at hq
  · rcases List.mem_append.mp hq with hold | hnew
    · exact hc.waiting b q hold
    · rw [List.mem_singleton.mp hnew]
      exact hnotDue
  · exact hc.waiting b q hq

theorem Inv.receive (hc : c.Inv) {sequenceType : SequenceType} {sequenceValue : Nat}
    {processNow : Bool}
    (hnow : processNow = true → (c.next sequenceType sequenceValue).Due c.reached)
    (hlater : processNow = false → ¬ (c.next sequenceType sequenceValue).Due c.reached ∧
      (c.tableOf sequenceType).Behind) :
    (c.receive sequenceType sequenceValue processNow).Inv := by
  have hissued : (c.next sequenceType sequenceValue).issued = c.history.arrived.length := rfl
  have hside : (c.next sequenceType sequenceValue).sequenceType.isBefore
    = sequenceType.isBefore := rfl
  unfold Control.receive
  cases processNow with
  | true =>
    refine ⟨?_, hc.before, hc.after, hc.waiting⟩
    exact hc.accounts.perform hissued (hnow rfl) hc.waiting
  | false =>
    obtain ⟨hnotDue, hbehind⟩ := hlater rfl
    unfold Control.tableOf at hbehind
    rw [if_neg (by decide)]
    split
    · next hbefore =>
      rw [if_pos hbefore] at hbehind
      have hspec := MessageTable.accumulateControlMessage_spec hc.before hbehind
        (c.next sequenceType sequenceValue)
      split
      · next t ht =>
        rw [ht] at hspec
        refine hc.store hissued hnotDue rfl ⟨rfl, rfl, rfl, rfl⟩ (fun b => ?_) hspec.2 hc.after
        rw [hside, hbefore]
        cases b with
        | true => exact hspec.1
        | false => rfl
      · next hfull =>
        rw [hfull] at hspec
        refine ⟨?_, hc.before, hc.after, hc.waiting⟩
        rw [hspec]
        exact hc.accounts.drop hissued
    · next hafter =>
      rw [if_neg hafter] at hbehind
      have hspec := MessageTable.accumulateControlMessage_spec hc.after hbehind
        (c.next sequenceType sequenceValue)
      split
      · next t ht =>
        rw [ht] at hspec
        refine hc.store hissued hnotDue rfl ⟨rfl, rfl, rfl, rfl⟩ (fun b => ?_) hc.before hspec.2
        rw [hside, Bool.eq_false_iff.mpr hafter]
        cases b with
        | true => rfl
        | false => exact hspec.1
      · next hfull =>
        rw [hfull] at hspec
        refine ⟨?_, hc.before, hc.after, hc.waiting⟩
        rw [hspec]
        exact hc.accounts.drop hissued

end Control

end Duckbox.Player
