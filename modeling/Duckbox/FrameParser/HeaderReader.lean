import Duckbox.Lib.Parse
import Mathlib.Algebra.Order.Ring.Int

/-!
# Reading a header

What the header reading functions of a frame parser are written with: the bits
(`Bits` and the anti-emulation buffer, here any `BitSource`), the header that is
filled in, and the other members they change. A function returns a status other
than `FrameParserNoError`, or is stopped by the model where it would write to an
array or read a table past its end (`Stop`).
-/

namespace Duckbox.FrameParser

open Duckbox.Lib

/-- The errors of `FrameParserStatus_t` that header reading returns. -/
inductive FrameParserStatus where
  | error
  | headerSyntaxError
  | failedToAllocateBuffer
deriving DecidableEq, Repr

/-- What ends a function early. -/
inductive Stop where
  | status (s : FrameParserStatus)
  | outOfBounds
deriving DecidableEq, Repr

/-- `Bits`, read through the anti-emulation buffer. -/
class BitSource (σ : Type) where
  get : Nat → σ → BitVec 32 × σ
  getUe : σ → BitVec 32 × σ
  getSe : σ → BitVec 32 × σ
  moreRsbpData : σ → Bool × σ
  /-- `none` where it copies past the end of the buffer. -/
  checkAntiEmulationBuffer : Nat → σ → Option σ
  /-- `TestAntiEmulationBuffer` finds nothing wrong. -/
  testAntiEmulationBuffer : σ → Bool

section

variable {σ H M A : Type} {n : Nat}

/-- The bits, the header being read, and the other members. -/
structure HeaderState (σ H M : Type) where
  bits : σ
  header : H
  members : M

/-- What a header reading function is. -/
abbrev HeaderParser (σ H M : Type) := Parse (HeaderState σ H M) Stop

/-- A part of a record. -/
structure Member (H A : Type) where
  get : H → A
  set : A → H → H

/-- A part of a part. -/
def Member.comp {B : Type} (m : Member H A) (k : Member A B) : Member H B where
  get h := k.get (m.get h)
  set b h := m.set (k.set b (m.get h)) h

namespace HeaderParser

/-- `u(n)`. -/
def u [BitSource σ] (n : Nat) : σ → BitVec 32 × σ := BitSource.get n

/-- `ue(v)`. -/
def ue [BitSource σ] : σ → BitVec 32 × σ := BitSource.getUe

/-- `se(v)`. -/
def se [BitSource σ] : σ → BitVec 32 × σ := BitSource.getSe

/-- A value read into a local. -/
def take (r : σ → A × σ) : HeaderParser σ H M A := fun s =>
  (.ok (r s.bits).1, { s with bits := (r s.bits).2 })

def header : HeaderParser σ H M H := fun s => (.ok s.header, s)

def members : HeaderParser σ H M M := fun s => (.ok s.members, s)

def setHeader (f : H → H) : HeaderParser σ H M Unit :=
  Parse.modify fun s => { s with header := f s.header }

def setMembers (f : M → M) : HeaderParser σ H M Unit :=
  Parse.modify fun s => { s with members := f s.members }

/-- `Header->field = r`. -/
def read (r : σ → BitVec 32 × σ) (set : BitVec 32 → H → H) : HeaderParser σ H M Unit := do
  let v ← take r
  setHeader (set v)

/-- `Header->array[i] = v`. -/
def store (array : Member H (Vector A n)) (i : Nat) (v : A) : HeaderParser σ H M Unit :=
  if h : i < n then setHeader fun x => array.set ((array.get x).set i v) x
  else Parse.stop .outOfBounds

/-- `Header->array[i] = r`, and the value. -/
def readAt (r : σ → A × σ) (array : Member H (Vector A n)) (i : Nat) :
    HeaderParser σ H M A := do
  let v ← take r
  store array i v
  pure v

/-- `Header->array[i] = r`. -/
def readInto (r : σ → A × σ) (array : Member H (Vector A n)) (i : Nat) :
    HeaderParser σ H M Unit := do
  let v ← take r
  store array i v

/-- A function that is passed `&Header->part`. -/
def within {B : Type} (part : Member H A) (p : HeaderParser σ A M B) : HeaderParser σ H M B :=
  fun s =>
    let (result, t) := p ⟨s.bits, part.get s.header, s.members⟩
    (result, ⟨t.bits, part.set t.header s.header, t.members⟩)

/-- `Assert( c )`. -/
def assertThat (c : Bool) : HeaderParser σ H M Unit :=
  if c then pure () else Parse.stop (.status .error)

/-- `MarkerBits( n, v )`. -/
def markerBits [BitSource σ] (n : Nat) (v : BitVec 32) : HeaderParser σ H M Unit := do
  let bits ← take (u n)
  if bits != v then Parse.stop (.status .headerSyntaxError) else pure ()

def checkAntiEmulationBuffer [BitSource σ] (size : Nat) : HeaderParser σ H M Unit := fun s =>
  match BitSource.checkAntiEmulationBuffer size s.bits with
  | some bits => (.ok (), { s with bits := bits })
  | none => (.error .outOfBounds, s)

/-- `AssertAntiEmulationOk`. -/
def assertAntiEmulationOk [BitSource σ] : HeaderParser σ H M Unit := fun s =>
  if BitSource.testAntiEmulationBuffer s.bits then (.ok (), s) else (.error (.status .error), s)

/-! ## What they cannot do -/

open Parse

theorem always_take (r : σ → A × σ) : Always (take r : HeaderParser σ H M A) :=
  fun s => ⟨(r s.bits).1, _, rfl⟩

theorem always_header : Always (header : HeaderParser σ H M H) := fun s => ⟨s.header, s, rfl⟩

theorem always_members : Always (members : HeaderParser σ H M M) := fun s => ⟨s.members, s, rfl⟩

theorem always_setHeader (f : H → H) : Always (setHeader f : HeaderParser σ H M Unit) :=
  Always.modify _

theorem always_read (r : σ → BitVec 32 × σ) (set : BitVec 32 → H → H) :
    Always (read r set : HeaderParser σ H M Unit) :=
  (always_take r).bind fun v => always_setHeader (set v)

theorem stops_readAt (r : σ → A × σ) (array : Member H (Vector A n)) {i : Nat} (h : ¬ i < n)
    (s : HeaderState σ H M) : Stops (readAt r array i) s .outOfBounds := by
  have htake : Yields (take r : HeaderParser σ H M A) s (r s.bits).1
    { s with bits := (r s.bits).2 } := rfl
  refine (stops_after htake).mpr (stops_bind.mpr (.inl ?_))
  unfold store
  rw [dif_neg h]
  rfl

theorem never_assertThat (c : Bool) : Never (assertThat c : HeaderParser σ H M Unit) .outOfBounds :=
  ((Always.pure ()).never _).ite (Never.stop (by simp))

theorem never_assertAntiEmulationOk [BitSource σ] :
    Never (assertAntiEmulationOk : HeaderParser σ H M Unit) .outOfBounds := by
  intro s h
  unfold Stops assertAntiEmulationOk at h
  split at h <;> simp at h

/-! ## When the checks pass -/

theorem yields_header {s t : HeaderState σ H M} {h : H} :
    Yields header s h t ↔ h = s.header ∧ t = s := by
  constructor
  · intro hy
    obtain ⟨hh, rfl⟩ := Prod.mk.inj (show (Except.ok s.header, s) = (Except.ok h, t) from hy)
    exact ⟨(Except.ok.inj hh).symm, rfl⟩
  · rintro ⟨rfl, rfl⟩
    rfl

variable {a : Unit}

theorem yields_setMembers {f : M → M} {s t : HeaderState σ H M} :
    Yields (setMembers f) s a t ↔ t = { s with members := f s.members } := by
  constructor
  · intro hy
    exact (Prod.mk.inj hy).2.symm
  · rintro rfl
    rfl

theorem yields_setHeader {f : H → H} {s t : HeaderState σ H M} :
    Yields (setHeader f) s a t ↔ t = { s with header := f s.header } := by
  constructor
  · intro hy
    exact (Prod.mk.inj hy).2.symm
  · rintro rfl
    rfl

variable {r : σ → A × σ}

theorem yields_take {s t : HeaderState σ H M} {a : A} :
    Yields (take r) s a t ↔ a = (r s.bits).1 ∧ t = { s with bits := (r s.bits).2 } := by
  constructor
  · intro hy
    obtain ⟨ha, rfl⟩ := Prod.mk.inj hy
    exact ⟨(Except.ok.inj ha).symm, rfl⟩
  · rintro ⟨rfl, rfl⟩
    rfl

variable {set : BitVec 32 → H → H}

theorem yields_read {r : σ → BitVec 32 × σ} {s t : HeaderState σ H M} :
    Yields (read r set) s a t ↔
      t = { s with bits := (r s.bits).2, header := set (r s.bits).1 s.header } := by
  constructor
  · intro hy
    exact (Prod.mk.inj hy).2.symm
  · rintro rfl
    rfl

variable {array : Member H (Vector A n)}

theorem yields_readAt {i : Nat} (hi : i < n) {s t : HeaderState σ H M} {a : A} :
    Yields (readAt r array i) s a t ↔
      a = (r s.bits).1 ∧
        t = { s with
              bits := (r s.bits).2
              header := array.set ((array.get s.header).set i (r s.bits).1) s.header } := by
  have heq : (readAt r array i : HeaderParser σ H M A) s =
      (.ok (r s.bits).1, { s with
        bits := (r s.bits).2
        header := array.set ((array.get s.header).set i (r s.bits).1) s.header }) := by
    show Parse.andThen (store array i (r s.bits).1) _ _ = _
    unfold store
    rw [dif_pos hi]
    rfl
  unfold Yields
  rw [heq]
  constructor
  · intro hy
    obtain ⟨ha, rfl⟩ := Prod.mk.inj hy
    exact ⟨(Except.ok.inj ha).symm, rfl⟩
  · rintro ⟨rfl, rfl⟩
    rfl

theorem yields_within {B : Type} {part : Member H A} {p : HeaderParser σ A M B}
    {s t : HeaderState σ H M} {b : B} :
    Yields (within part p) s b t ↔
      ∃ t', Yields p ⟨s.bits, part.get s.header, s.members⟩ b t' ∧
        t = ⟨t'.bits, part.set t'.header s.header, t'.members⟩ := by
  constructor
  · intro hy
    obtain ⟨hb, rfl⟩ := Prod.mk.inj hy
    exact ⟨_, Prod.ext hb rfl, rfl⟩
  · rintro ⟨t', hy, rfl⟩
    unfold Yields within
    rw [show p _ = _ from hy]

variable {c : Bool}

theorem yields_assertThat {s t : HeaderState σ H M} :
    Yields (assertThat c) s a t ↔ c = true ∧ t = s := by
  cases c with
  | false => exact iff_of_false (fun h => nomatch congrArg Prod.fst h) fun h => nomatch h.1
  | true =>
    constructor
    · intro hy
      exact ⟨rfl, (Prod.mk.inj hy).2.symm⟩
    · rintro ⟨-, rfl⟩
      rfl

theorem yields_assertAntiEmulationOk [BitSource σ] {s t : HeaderState σ H M} :
    Yields assertAntiEmulationOk s a t ↔
      BitSource.testAntiEmulationBuffer s.bits = true ∧ t = s := by
  unfold Yields assertAntiEmulationOk
  cases BitSource.testAntiEmulationBuffer s.bits with
  | false => exact iff_of_false (fun h => nomatch congrArg Prod.fst h) fun h => nomatch h.1
  | true =>
    constructor
    · intro hy
      exact ⟨rfl, (Prod.mk.inj hy).2.symm⟩
    · rintro ⟨-, rfl⟩
      rfl

/-! ## What they leave -/

section Leaves

variable {B A' : Type} {part : H → B} {b b' : B} {s : HeaderState σ H M} {bits bits' : σ}

/-- A function returns, and leaves these bits and this part of the header. -/
def Leaves (part : H → B) (p : HeaderParser σ H M A) (s : HeaderState σ H M) (a : A) (bits : σ)
    (b : B) : Prop :=
  ∃ h m, Yields p s a ⟨bits, h, m⟩ ∧ part h = b

theorem Leaves.bind {p : HeaderParser σ H M A} {q : A → HeaderParser σ H M A'} {a : A} {a' : A'}
    (hp : Leaves part p s a bits b)
    (hq : ∀ h m, part h = b → Leaves part (q a) ⟨bits, h, m⟩ a' bits' b') :
    Leaves part (p >>= q) s a' bits' b' := by
  obtain ⟨h, m, hy, hb⟩ := hp
  obtain ⟨h', m', hy', hb'⟩ := hq h m hb
  exact ⟨h', m', yields_bind.mpr ⟨a, _, hy, hy'⟩, hb'⟩

theorem Leaves.wp_iff {p : HeaderParser σ H M A} {a : A} {e : Stop}
    {Q : A → HeaderState σ H M → Prop} {K : Prop} (hp : Leaves part p s a bits b)
    (hQ : ∀ h m, part h = b → (Q a ⟨bits, h, m⟩ ↔ K)) : wp e p Q s ↔ K := by
  obtain ⟨h, m, hy, hb⟩ := hp
  exact (wp_yields hy).trans (hQ h m hb)

theorem leaves_pure (a : A) (hb : part s.header = b) :
    Leaves part (pure a : HeaderParser σ H M A) s a s.bits b :=
  ⟨s.header, s.members, rfl, hb⟩

theorem leaves_take (r : σ → A × σ) (hb : part s.header = b) :
    Leaves part (take r) s (r s.bits).1 (r s.bits).2 b :=
  ⟨s.header, s.members, rfl, hb⟩

theorem Leaves.after_header {q : H → HeaderParser σ H M A} {a : A}
    (h : Leaves part (q s.header) s a bits b) : Leaves part (header >>= q) s a bits b := h

theorem leaves_setHeader {f : H → H} (hb : part (f s.header) = b) :
    Leaves part (setHeader f) s () s.bits b :=
  ⟨_, s.members, rfl, hb⟩

theorem leaves_read {r : σ → BitVec 32 × σ} (hb : part (set (r s.bits).1 s.header) = b) :
    Leaves part (read r set) s () (r s.bits).2 b :=
  ⟨_, s.members, rfl, hb⟩

theorem leaves_readAt {i : Nat} (hi : i < n) (hb : ∀ v, part (array.set v s.header) = b) :
    Leaves part (readAt r array i) s (r s.bits).1 (r s.bits).2 b :=
  ⟨_, s.members, (yields_readAt hi).mpr ⟨rfl, rfl⟩, hb _⟩

theorem leaves_readInto {i : Nat} (hi : i < n) (hb : ∀ v, part (array.set v s.header) = b) :
    Leaves part (readInto r array i) s () (r s.bits).2 b := by
  refine ⟨_, s.members, ?_, hb ((array.get s.header).set i (r s.bits).1)⟩
  show store array i (r s.bits).1 { s with bits := (r s.bits).2 } = _
  unfold store
  rw [dif_pos hi]
  rfl

variable {p : HeaderParser σ H M Unit}

theorem Leaves.when (hp : Leaves part p s () bits b) (hb : part s.header = b) :
    Leaves part (Parse.when c p) s () (if c then bits else s.bits) b := by
  cases c with
  | false => exact leaves_pure () hb
  | true => exact hp

theorem Leaves.when_true (hc : c = true) (hp : Leaves part p s () bits b) :
    Leaves part (Parse.when c p) s () bits b := by
  rwa [hc]

theorem leaves_when_false (hc : c = false) (hb : part s.header = b) :
    Leaves part (Parse.when c p) s () s.bits b := by
  rw [hc]
  exact leaves_pure () hb

theorem Leaves.ite {p q : HeaderParser σ H M A} {c : Prop} [Decidable c] {a : A}
    (hp : Leaves part p s a bits b) (hq : Leaves part q s a bits' b) :
    Leaves part (if c then p else q) s a (if c then bits else bits') b := by
  split
  · exact hp
  · exact hq

end Leaves

/-! ## How far they read -/

/-- Behind elements, whatever they are. -/
def skip (elements : List (σ → BitVec 32 × σ)) (s : σ) : σ :=
  elements.foldl (fun s r => (r s).2) s

/-- A function that returns leaves the bits at `f` of where they were. -/
def Moves (f : σ → σ) (p : HeaderParser σ H M A) : Prop :=
  ∀ s a t, Yields p s a t → t.bits = f s.bits

section Moves

variable {B : Type} {f g : σ → σ} {r : σ → BitVec 32 × σ} {rs : List (σ → BitVec 32 × σ)}

variable {p : HeaderParser σ H M A} {q : A → HeaderParser σ H M B}

theorem Moves.bind (hp : Moves f p) (hq : ∀ a, Moves g (q a)) :
    Moves (fun s => g (f s)) (p >>= q) := by
  intro s b t h
  obtain ⟨a, s', hs', h⟩ := yields_bind.mp h
  rw [hq a s' b t h, hp s a s' hs']

theorem Moves.bind_skip (hp : Moves (skip [r]) p) (hq : ∀ a, Moves (skip rs) (q a)) :
    Moves (skip (r :: rs)) (p >>= q) :=
  hp.bind hq

theorem Moves.bind_id (hp : Moves id p) (hq : ∀ a, Moves f (q a)) : Moves f (p >>= q) :=
  hp.bind hq

theorem moves_take (r : σ → BitVec 32 × σ) :
    Moves (skip [r]) (take r : HeaderParser σ H M (BitVec 32)) := by
  intro s a t h
  obtain ⟨-, rfl⟩ := yields_take.mp h
  rfl

theorem Moves.bind_take {f : BitVec 32 → σ → σ} {q : BitVec 32 → HeaderParser σ H M B}
    (hq : ∀ v, Moves (f v) (q v)) : Moves (fun s => f (r s).1 (r s).2) (take r >>= q) := by
  intro s b t h
  obtain ⟨v, s', hs', h⟩ := yields_bind.mp h
  obtain ⟨rfl, rfl⟩ := yields_take.mp hs'
  exact hq _ _ b t h

theorem moves_read (r : σ → BitVec 32 × σ) (set : BitVec 32 → H → H) :
    Moves (skip [r]) (read r set : HeaderParser σ H M Unit) := by
  intro s a t h
  obtain rfl := yields_read.mp h
  rfl

theorem moves_setHeader (f : H → H) : Moves id (setHeader f : HeaderParser σ H M Unit) := by
  intro s a t h
  obtain rfl := yields_setHeader.mp h
  rfl

theorem moves_stop (e : Stop) : Moves f (Parse.stop e : HeaderParser σ H M A) := by
  intro s a t h
  exact absurd (congrArg Prod.fst h) (by simp [Parse.stop])

theorem moves_pure (a : A) : Moves id (pure a : HeaderParser σ H M A) := by
  intro s b t h
  obtain rfl := (Prod.mk.inj h).2
  rfl

theorem moves_readInto (r : σ → BitVec 32 × σ) (array : Member H (Vector (BitVec 32) n)) (i : Nat) :
    Moves (skip [r]) (readInto r array i : HeaderParser σ H M Unit) := by
  refine Moves.bind (moves_take r) (g := id) fun v => ?_
  unfold store
  split
  · exact moves_setHeader _
  · exact moves_stop _

theorem Moves.when {p : HeaderParser σ H M Unit} (hp : Moves f p) :
    Moves (fun s => if c then f s else s) (Parse.when c p) := by
  cases c with
  | false => exact moves_pure ()
  | true => exact hp

theorem Moves.ite {q : HeaderParser σ H M A} {c : Prop} [Decidable c] (hp : Moves f p)
    (hq : Moves g q) : Moves (fun s => if c then f s else g s) (if c then p else q) := by
  split
  · exact hp
  · exact hq

theorem Moves.forFrom {body : Nat → HeaderParser σ H M Unit} (h : ∀ i, Moves f (body i))
    (passes i : Nat) : Moves f^[passes] (Parse.forFrom body passes i) := by
  induction passes generalizing i with
  | zero => exact moves_pure ()
  | succ passes ih => exact (h i).bind fun _ => ih (i + 1)

end Moves

/-! ## What they keep of the header -/

section Keeps

variable {P : H → Prop}

/-- A property of the header is kept. -/
abbrev KeepsHeader (P : H → Prop) (p : HeaderParser σ H M A) : Prop :=
  Keeps (fun s => P s.header) p

theorem keeps_take (r : σ → A × σ) : KeepsHeader P (take r : HeaderParser σ H M A) := by
  intro s a s' hs h
  obtain ⟨-, rfl⟩ := Prod.mk.inj
    (show (Except.ok (r s.bits).1, { s with bits := (r s.bits).2 }) = (Except.ok a, s') from h)
  exact hs

theorem keeps_header : KeepsHeader P (header : HeaderParser σ H M H) := by
  intro s a s' hs h
  obtain ⟨-, rfl⟩ := Prod.mk.inj (show (Except.ok s.header, s) = (Except.ok a, s') from h)
  exact hs

theorem keeps_setHeader {f : H → H} (hf : ∀ h, P h → P (f h)) :
    KeepsHeader P (setHeader f : HeaderParser σ H M Unit) :=
  Keeps.modify fun s hs => hf s.header hs

theorem keeps_setMembers (f : M → M) :
    KeepsHeader P (setMembers f : HeaderParser σ H M Unit) :=
  Keeps.modify fun _ hs => hs

theorem keeps_read {r : σ → BitVec 32 × σ} (hset : ∀ v h, P h → P (set v h)) :
    KeepsHeader P (read r set : HeaderParser σ H M Unit) :=
  (keeps_take r).bind fun v => keeps_setHeader (hset v)

theorem keeps_store (hset : ∀ v h, P h → P (array.set v h)) (i : Nat) (v : A) :
    KeepsHeader P (store array i v : HeaderParser σ H M Unit) := by
  unfold store
  split
  · exact keeps_setHeader fun h hh => hset _ h hh
  · exact Keeps.stop _

theorem keeps_readInto (hset : ∀ v h, P h → P (array.set v h)) (i : Nat) :
    KeepsHeader P (readInto r array i : HeaderParser σ H M Unit) :=
  (keeps_take r).bind fun v => keeps_store hset i v

theorem keeps_within {B : Type} {part : Member H A} {p : HeaderParser σ A M B}
    (hset : ∀ v h, P h → P (part.set v h)) : KeepsHeader P (within part p) := by
  intro s b t hs h
  obtain ⟨-, rfl⟩ := Prod.mk.inj (show ((p ⟨s.bits, part.get s.header, s.members⟩).1, _) = (_, t) from h)
  exact hset _ _ hs

end Keeps

end HeaderParser

end

/-! ## Bits in a list -/

/-- What is left of a payload of whole bytes as its bits; zeros follow it. -/
structure BitList where
  bits : List Bool
deriving DecidableEq, Repr

namespace BitList

/-- The value of `n` bits. -/
def value : Nat → List Bool → Nat
  | 0, _ => 0
  | n + 1, [] => 2 * value n []
  | n + 1, b :: rest => b.toNat * 2 ^ n + value n rest

def get (n : Nat) (s : BitList) : BitVec 32 × BitList :=
  (BitVec.ofNat 32 (value n s.bits), ⟨s.bits.drop n⟩)

/-- `__lzcntw( Show( 32 ) )`. -/
def leadingZeros : Nat → List Bool → Nat
  | 0, _ => 0
  | n + 1, [] => 1 + leadingZeros n []
  | n + 1, b :: rest => if b then 0 else 1 + leadingZeros n rest

def getUe (s : BitList) : BitVec 32 × BitList :=
  let zeros := leadingZeros 32 s.bits
  let s : BitList := ⟨s.bits.drop (zeros + 1)⟩
  if zeros != 0 then
    let (v, s) := s.get zeros
    (BitVec.ofNat 32 (2 ^ zeros) - 1 + v, s)
  else (0, s)

def getSe (s : BitList) : BitVec 32 × BitList :=
  let (code, s) := s.getUe
  (if code &&& 1 != 0 then (code >>> 1) + 1 else -(code >>> 1), s)

/-- The rest of the byte and the next are not a stop bit and zeros. -/
def moreRsbpData (s : BitList) : Bool × BitList :=
  let bitsInByte := (if s.bits.length % 8 = 0 then 8 else s.bits.length % 8) + 8
  (value bitsInByte s.bits != 2 ^ (bitsInByte - 1), s)

instance : BitSource BitList where
  get := get
  getUe := getUe
  getSe := getSe
  moreRsbpData := moreRsbpData
  checkAntiEmulationBuffer _ s := some s
  testAntiEmulationBuffer _ := true

end BitList

end Duckbox.FrameParser
