import Duckbox.Lib.Counting
import Duckbox.Lib.Loop

/-!
# Buffer reference counting

`BufferPool_Generic_c` pools with a fixed number of buffers: the reference counts
of buffers and pools, the ring of free buffers, and the buffers attached to
others. There are `n` buffers, those of all pools together, and `m` pools;
`poolOf` says which pool a buffer was created in. The last reference to a buffer
releases it, which drops its attached buffers, which may release those:
`DecrementReferenceCount` and `ReleaseBuffer` call each other, here with the
number of attachments as fuel, every call after the first having cleared one.

Not modelled: owner identifiers, buffer memory and meta data (memory is obtained
when a buffer is), release events, and the locks.
-/

namespace Duckbox.BufferPool

open Duckbox.Lib

/-- `unsigned int`. -/
abbrev UnsignedInt := BitVec 32

/-- `MAX_ATTACHED_BUFFERS`. -/
abbrev maxAttachedBuffers : Nat := 4

/-! ## The ring -/

/-- `RingGeneric_c`: what is in it, oldest first. -/
structure Ring (α : Type) where
  limit : Nat
  entries : List α

namespace Ring

variable {α : Type}

/-- `RingGeneric_c( MaxEntries )`. -/
def create (maxEntries : Nat) : Ring α := ⟨maxEntries + 1, []⟩

/-- `Insert`; `RingTooManyEntries` leaves the ring as it was. -/
def insert (r : Ring α) (value : α) : Ring α :=
  if r.entries.length + 1 = r.limit then r else { r with entries := r.entries ++ [value] }

/-- `Extract` without waiting; `none` is `RingNothingToGet`. -/
def extract (r : Ring α) : Option (α × Ring α) :=
  match r.entries with
  | [] => none
  | value :: rest => some (value, { r with entries := rest })

theorem foldl_insert (l : List α) :
    ∀ {ring : Ring α}, ring.entries.length + l.length < ring.limit →
      l.foldl Ring.insert ring = { ring with entries := ring.entries ++ l } := by
  induction l with
  | nil => intro ring _; simp
  | cons x l ih =>
    intro ring h
    rw [List.length_cons] at h
    have hinsert : ring.insert x = { ring with entries := ring.entries ++ [x] } := by
      unfold Ring.insert
      rw [if_neg (by omega)]
    rw [List.foldl_cons, hinsert, ih]
    · simp
    · rw [List.length_append, List.length_singleton]
      show _ < ring.limit
      omega

end Ring

/-! ## Buffers and pools -/

/-- `Buffer_Generic_c`. -/
structure Buffer (n : Nat) where
  referenceCount : UnsignedInt
  attachedBuffers : Fin maxAttachedBuffers → Option (Fin n)

/-- `BufferPool_Generic_c`. -/
structure Pool (n : Nat) where
  referenceCount : UnsignedInt
  countOfReferencedBuffers : UnsignedInt
  freeBuffer : Ring (Fin n)

/-- The buffers and pools of a manager. -/
structure Manager (n m : Nat) where
  buffers : Fin n → Buffer n
  pools : Fin m → Pool n

variable {n m : Nat}

/-- The buffers a pool creates, in order. -/
def buffersOf (poolOf : Fin n → Fin m) (p : Fin m) : List (Fin n) :=
  (List.finRange n).filter fun b => poolOf b = p

namespace Manager

/-- The constructors of the pools and their buffers. -/
def created (poolOf : Fin n → Fin m) : Manager n m where
  buffers _ := ⟨0, fun _ => none⟩
  pools p :=
    { referenceCount := 0
      countOfReferencedBuffers := 0
      freeBuffer :=
        (buffersOf poolOf p).foldl Ring.insert (Ring.create (buffersOf poolOf p).length) }

/-- `AttachedBuffers[i]` of a buffer. -/
def slot (s : Manager n m) (b : Fin n) (i : Fin maxAttachedBuffers) : Option (Fin n) :=
  (s.buffers b).attachedBuffers i

def modifyBuffer (s : Manager n m) (b : Fin n) (f : Buffer n → Buffer n) : Manager n m :=
  { s with buffers := Function.update s.buffers b (f (s.buffers b)) }

def modifyPool (s : Manager n m) (p : Fin m) (f : Pool n → Pool n) : Manager n m :=
  { s with pools := Function.update s.pools p (f (s.pools p)) }

/-- `AttachedBuffers[i] = v`. -/
def setSlot (s : Manager n m) (b : Fin n) (i : Fin maxAttachedBuffers) (v : Option (Fin n)) :
    Manager n m :=
  s.modifyBuffer b fun x => { x with attachedBuffers := Function.update x.attachedBuffers i v }

/-- The first entry of `AttachedBuffers` with the value. -/
def firstSlot (s : Manager n m) (b : Fin n) (v : Option (Fin n)) :
    Option (Fin maxAttachedBuffers) :=
  (List.finRange maxAttachedBuffers).find? fun i => s.slot b i == v

/-- How many attachments there are. -/
def links (s : Manager n m) : Nat :=
  count fun x : Fin n × Fin maxAttachedBuffers => s.slot x.1 x.2 ≠ none

section Operations

variable (poolOf : Fin n → Fin m)

/-- `GetBuffer` when the memory is obtained; `none` is `BufferNoFreeBufferAvailable`. -/
def getBuffer (s : Manager n m) (p : Fin m) : Option (Fin n × Manager n m) :=
  match (s.pools p).freeBuffer.extract with
  | none => none
  | some (b, ring) =>
    let s := s.modifyBuffer b fun _ => ⟨1, fun _ => none⟩
    some (b, s.modifyPool p fun x =>
      { referenceCount := x.referenceCount + 1
        countOfReferencedBuffers := x.countOfReferencedBuffers + 1
        freeBuffer := ring })

/-- `IncrementReferenceCount`. -/
def incrementReferenceCount (s : Manager n m) (b : Fin n) : Manager n m :=
  (s.modifyPool (poolOf b) fun x => { x with referenceCount := x.referenceCount + 1 }).modifyBuffer
    b fun x => { x with referenceCount := x.referenceCount + 1 }

/-- The two counts that `DecrementReferenceCount` takes one off. -/
def decrementCounts (s : Manager n m) (b : Fin n) : Manager n m :=
  (s.modifyPool (poolOf b) fun x => { x with referenceCount := x.referenceCount - 1 }).modifyBuffer
    b fun x => { x with referenceCount := x.referenceCount - 1 }

/-- One pass of "release our hold on any attached buffers". -/
def releaseAttachment (decrement : Manager n m → Fin n → Option (Manager n m)) (b : Fin n)
    (s : Manager n m) (i : Fin maxAttachedBuffers) : Option (Manager n m) :=
  match s.slot b i with
  | none => some s
  | some temporary => decrement (s.setSlot b i none) temporary

/-- The end of `ReleaseBuffer`: the buffer is free. -/
def insertFree (s : Manager n m) (b : Fin n) : Manager n m :=
  s.modifyPool (poolOf b) fun x =>
    { x with
      freeBuffer := x.freeBuffer.insert b
      countOfReferencedBuffers := x.countOfReferencedBuffers - 1 }

/-- `ReleaseBuffer`. -/
def releaseBuffer (decrement : Manager n m → Fin n → Option (Manager n m)) (s : Manager n m)
    (b : Fin n) : Option (Manager n m) :=
  ((List.finRange maxAttachedBuffers).foldlM (releaseAttachment decrement b) s).map
    (insertFree poolOf · b)

/-- `DecrementReferenceCount` within a depth of calls. -/
def decrementWithin : Nat → Manager n m → Fin n → Option (Manager n m)
  | 0, _, _ => none
  | fuel + 1, s, b =>
    let s := s.decrementCounts poolOf b
    if (s.buffers b).referenceCount = 0 then releaseBuffer poolOf (decrementWithin fuel) s b
    else some s

/-- `DecrementReferenceCount`. -/
def decrementReferenceCount (s : Manager n m) (b : Fin n) : Option (Manager n m) :=
  decrementWithin poolOf (s.links + 1) s b

/-- `AttachBuffer`; `BufferTooManyAttachments` changes nothing. -/
def attachBuffer (s : Manager n m) (a b : Fin n) : Manager n m :=
  match s.firstSlot a none with
  | none => s
  | some i => (s.setSlot a i (some b)).incrementReferenceCount poolOf b

/-- `DetachBuffer`; `BufferAttachmentNotFound` changes nothing. -/
def detachBuffer (s : Manager n m) (a b : Fin n) : Option (Manager n m) :=
  match s.firstSlot a (some b) with
  | none => some s
  | some i => (s.setSlot a i none).decrementReferenceCount poolOf b

end Operations

end Manager

/-! ## Runs -/

/-- The calls of the users of the buffers. -/
inductive Operation (n m : Nat) where
  | getBuffer (p : Fin m)
  | incrementReferenceCount (b : Fin n)
  | decrementReferenceCount (b : Fin n)
  | attachBuffer (a b : Fin n)
  | detachBuffer (a b : Fin n)

/-- The manager with the references its users hold. -/
structure Run (n m : Nat) where
  manager : Manager n m
  external : Fin n → Nat

namespace Run

/-- Nobody holds a buffer yet. -/
def created (poolOf : Fin n → Fin m) : Run n m := ⟨Manager.created poolOf, fun _ => 0⟩

/-- One call; `none` if it does not return. -/
def step (poolOf : Fin n → Fin m) (r : Run n m) : Operation n m → Option (Run n m)
  | .getBuffer p =>
    match r.manager.getBuffer p with
    | none => some r
    | some (b, s) => some ⟨s, Function.update r.external b (r.external b + 1)⟩
  | .incrementReferenceCount b =>
    some ⟨r.manager.incrementReferenceCount poolOf b,
      Function.update r.external b (r.external b + 1)⟩
  | .decrementReferenceCount b =>
    (r.manager.decrementReferenceCount poolOf b).map
      (⟨·, Function.update r.external b (r.external b - 1)⟩)
  | .attachBuffer a b => some ⟨r.manager.attachBuffer poolOf a b, r.external⟩
  | .detachBuffer a b => (r.manager.detachBuffer poolOf a b).map (⟨·, r.external⟩)

end Run

end Duckbox.BufferPool
