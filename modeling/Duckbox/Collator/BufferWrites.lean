import Duckbox.Collator.PesVideo
import Duckbox.Lib.Extent

/-!
# What the original collator writes into the coded frame buffer

Data comes into the buffer by four ways: `AccumulateData`, which looks at the size a
coded frame can have, the bytes of a header that is collected behind the data, those
of a start code cut by the end of a chunk, and the header that ended a frame, put at
the beginning of the next. The extents written are those of the copies the source
makes (`Session.writes`), pass by pass.

Only the first way looks at the limit, and the sum it looks at is that of two words.
So a pass has room (`PesVideo.Roomy`) unless what it brings ends behind the limit and
comes by another way, or by this one with a sum that wraps.

> `run_contained`: in every run whose passes have room, nothing is written behind
> the limit, and what would be is discarded.
-/

namespace Duckbox.Collator

open Lib (Along Extent)
open Lib.Extent (Below below_nil below_singleton)
open Collator2 (CollatorStatus InputDescriptor packStartCode)

theorem writeAt_behind {buffer : Nat → Byte} {offset n a : Nat} {data : List Byte}
    (hends : offset + data.length ≤ n) (ha : n ≤ a) : writeAt buffer offset data a = buffer a := by
  unfold writeAt
  split
  · exact List.getD_eq_default _ _ (by omega)
  · rfl

/-- The memory of the buffer that is held, given that which was got when the output ring
was registered. -/
def Environment.memory (env : Environment) (first : Nat → Byte) : Nat → Option (Nat → Byte)
  | 0 => some first
  | n + 1 => env.getBuffer n

namespace PesVideo

/-! ## The extents -/

section

variable (c : Configuration) (env : Environment) (s : PesVideo) (r : Remaining)

/-- Of `AccumulateData`. -/
def accumulateWrites (data : List Byte) : List Extent :=
  if c.maximumCodedFrameSize < (s.accumulatedDataSize + data.length) % 2 ^ 32 then []
  else [⟨s.accumulatedDataSize, data.length⟩]

/-- Of the terminal code inserted. -/
def terminalWrites : List Extent :=
  if s.accumulatedDataSize ≠ 0 ∧ c.insertFrameTerminateCode then
    s.accumulateWrites c [0x00, 0x00, 0x01, c.terminalCode]
  else []

/-- Of `InternalFrameFlush`. -/
def flushWrites : List Extent := if s.nothingToFlush then [] else s.terminalWrites c

/-- Of as much of the header as there is. -/
def collectWrites : List Extent :=
  [⟨s.storedPartialHeader + s.gotPartialCurrentSize,
    min r.length.toNat (s.gotPartialDesiredSize - s.gotPartialCurrentSize)⟩]

/-- Of a frame put out and its terminating header. -/
def terminateWrites : List Extent :=
  s.flushWrites c ++
    if (s.internalFrameFlush c env).1 then [⟨0, s.gotPartialCurrentSize⟩] else []

/-- Of `HeaderGenericStartCode`. -/
def genericWrites : List Extent :=
  let (blockTerminate, s) := s.blockTerminate c env (s.headerByte 3)
  if blockTerminate then { s with gotPartialHeader := false }.terminateWrites c env else []

/-- Of a pass that goes on with a header. -/
def headerWrites : List Extent :=
  let collected := (s.collectHeader r).1
  s.collectWrites r ++
    if collected.gotPartialDesiredSize ≤ collected.gotPartialCurrentSize ∧
        collected.gotPartialType = .headerGenericStartCode then
      collected.genericWrites c env
    else []

/-- What the look for a start code comes to. -/
def found : Found :=
  (lookForCode c.toCodeConfiguration (readAt s.bufferBase 0 s.accumulatedDataSize) r s.pes).1

/-- Of a pass that looks for a start code. -/
def codeWrites : List Extent :=
  match s.found c r with
  | .spanning count => [⟨s.accumulatedDataSize, count⟩]
  | .nothing => s.accumulateWrites c r.bytes
  | .code offset => s.accumulateWrites c (r.read 0 (offset + 4))

def passWrites : List Extent :=
  if s.gotPartialHeader then s.headerWrites c env r
  else if s.skipping ≠ 0 then []
  else s.codeWrites c r

/-- Of `InputExit`. -/
def exitWrites : List Extent := if s.inputExitPerformFrameFlush then s.flushWrites c else []

/-- Of `InputJump`, which flushes twice, or once with all discarded before. -/
def jumpWrites (surplusDataInjected continuousReverseJump : Bool) : List Extent :=
  let first :=
    if surplusDataInjected then s.discardAccumulatedData else (s.internalFrameFlush c env).2
  (if surplusDataInjected then [] else s.flushWrites c) ++
    { first with
      codedFrameParameters :=
        { first.codedFrameParameters with
          streamDiscontinuity := true
          flushBeforeDiscontinuity := surplusDataInjected
          continuousReverseJump := continuousReverseJump } }.flushWrites c

/-! ## What a pass asks -/

/-- How many bytes a pass brings behind what has been accumulated, and whether it is
`AccumulateData` that they are given to. -/
def brought : Nat × Bool :=
  if s.gotPartialHeader then ((s.collectHeader r).1.gotPartialCurrentSize, false)
  else if s.skipping ≠ 0 then (0, true)
  else
    match s.found c r with
    | .spanning count => (count, false)
    | .nothing => (r.length.toNat, true)
    | .code offset => (offset + 4, true)

/-- What a pass brings would end behind what a coded frame can have. -/
def Exceeds : Prop := c.maximumCodedFrameSize < s.accumulatedDataSize + (s.brought c r).1

instance : Decidable (s.Exceeds c r) := inferInstanceAs (Decidable (_ < _))

/-- Where a pass brings too much, the limit is looked at and the sum compared with it has not
come below it again, and there is a buffer to discard it from. -/
def Roomy : Prop :=
  s.Exceeds c r →
    (s.brought c r).2 = true ∧ s.hasCodedFrameBuffer = true ∧
      c.maximumCodedFrameSize < (s.accumulatedDataSize + (s.brought c r).1) % 2 ^ 32

instance : Decidable (s.Roomy c r) := inferInstanceAs (Decidable (_ → _))

/-- A flush would have the frame end with a terminal code that there is no room for. -/
def TerminalExceeds : Prop :=
  s.accumulatedDataSize ≠ 0 ∧ c.insertFrameTerminateCode = true ∧
    c.maximumCodedFrameSize < s.accumulatedDataSize + 4

/-- What `AccumulateData` returns. -/
def accumulateStatus (data : List Byte) : CollatorStatus :=
  if (s.accumulateData c data).1 then .collatorNoError else .collatorBufferOverflow

/-- What `Input` returns where it returns from the look for a start code. -/
def codeStatus : Option CollatorStatus :=
  match s.found c r with
  | .spanning _ => none
  | .nothing => some (s.accumulateStatus c r.bytes)
  | .code offset =>
    if (s.accumulateData c (r.read 0 (offset + 4))).1 then none
    else some (s.accumulateStatus c (r.read 0 (offset + 4)))

/-- With a buffer that nothing is in, as it is when the output ring has been registered: the
next packet header begins a frame. -/
structure Ready (s : PesVideo) : Prop where
  has : s.hasCodedFrameBuffer = true
  size : s.accumulatedDataSize = 0
  codes : s.startCodeList = []
  seeking : s.seekingPesHeader = true
  header : s.gotPartialHeader = false
  skipping : s.skipping = 0

end

/-- What is accumulated is within the limit, and the memory behind it is as it was got. -/
structure Within (c : Configuration) (memory : Nat → Option (Nat → Byte)) (s : PesVideo) :
    Prop where
  size : s.accumulatedDataSize ≤ c.maximumCodedFrameSize
  behind : ∀ buffer, memory s.buffersGot = some buffer →
    ∀ a, c.maximumCodedFrameSize ≤ a → s.bufferBase a = buffer a

/-- So it is, and a partial header begins no further than where that ends. -/
structure Contained (c : Configuration) (memory : Nat → Option (Nat → Byte)) (s : PesVideo) : Prop
    extends Within c memory s where
  header : s.gotPartialHeader = true →
    s.storedPartialHeader ≤ s.accumulatedDataSize ∧ 4 ≤ s.gotPartialCurrentSize

section

variable {c : Configuration} {env : Environment} {memory : Nat → Option (Nat → Byte)}
  {first : Nat → Byte} {s t : PesVideo} {r : Remaining}

theorem Within.contained (h : Within c memory s) (hgot : s.gotPartialHeader = false) :
    Contained c memory s :=
  ⟨h, fun hpart => absurd (hgot.symm.trans hpart) Bool.false_ne_true⟩

/-! ## Accumulation -/

theorem accumulateData_room (data : List Byte)
    (hroom : s.accumulatedDataSize + data.length ≤ c.maximumCodedFrameSize)
    (hmax : c.maximumCodedFrameSize < 2 ^ 32) :
    s.accumulateData c data =
      (true,
        { s with
          bufferBase := writeAt s.bufferBase s.accumulatedDataSize data
          accumulatedDataSize := s.accumulatedDataSize + data.length }) ∧
      Below (s.accumulateWrites c data) c.maximumCodedFrameSize := by
  have hmod : (s.accumulatedDataSize + data.length) % 2 ^ 32 = s.accumulatedDataSize + data.length :=
    Nat.mod_eq_of_lt (by omega)
  unfold accumulateData accumulateWrites
  rw [hmod]
  dsimp only
  rw [if_neg (Nat.not_lt.mpr hroom), if_neg (Nat.not_lt.mpr hroom)]
  exact ⟨rfl, below_singleton hroom⟩

theorem accumulateData_full (data : List Byte)
    (hfull : c.maximumCodedFrameSize < (s.accumulatedDataSize + data.length) % 2 ^ 32) :
    s.accumulateData c data = (false, s) ∧ s.accumulateWrites c data = [] := by
  unfold accumulateData accumulateWrites
  dsimp only
  rw [if_pos hfull, if_pos hfull]
  exact ⟨rfl, rfl⟩

theorem Within.write (h : Within c memory s) {offset size : Nat} {data : List Byte}
    (hends : offset + data.length ≤ c.maximumCodedFrameSize)
    (hsize : size ≤ c.maximumCodedFrameSize) :
    Within c memory
      { s with bufferBase := writeAt s.bufferBase offset data, accumulatedDataSize := size } := by
  refine ⟨hsize, fun buffer hbuffer a ha => ?_⟩
  dsimp only
  rw [writeAt_behind hends ha]
  exact h.behind buffer hbuffer a ha

theorem discardAccumulatedData_contained (h : Within c memory s) :
    Contained c memory s.discardAccumulatedData := by
  unfold discardAccumulatedData
  split
  · exact ⟨⟨Nat.zero_le _, h.behind⟩, fun hgot => nomatch hgot⟩
  · exact ⟨⟨h.size, h.behind⟩, fun hgot => nomatch hgot⟩

theorem discardAccumulatedData_ready (has : s.hasCodedFrameBuffer = true) :
    Ready s.discardAccumulatedData := by
  unfold discardAccumulatedData
  rw [if_pos has]
  exact ⟨has, rfl, rfl, rfl, rfl, rfl⟩

theorem insertTerminalCode_full (hdata : s.accumulatedDataSize ≠ 0)
    (hinsert : c.insertFrameTerminateCode = true)
    (hfull : c.maximumCodedFrameSize < (s.accumulatedDataSize + 4) % 2 ^ 32) :
    s.insertTerminalCode c = s.discardAccumulatedData ∧ s.terminalWrites c = [] := by
  obtain ⟨heq, hnone⟩ := accumulateData_full (c := c) (s := s)
    [0x00, 0x00, 0x01, c.terminalCode] hfull
  unfold insertTerminalCode terminalWrites
  rw [if_pos ⟨hdata, hinsert⟩, if_pos ⟨hdata, hinsert⟩, heq, hnone]
  exact ⟨rfl, rfl⟩

theorem Within.terminal (h : Within c memory s) (hmax : c.maximumCodedFrameSize + 4 < 2 ^ 32)
    (hexceeds : s.TerminalExceeds c) : s.insertTerminalCode c = s.discardAccumulatedData := by
  obtain ⟨hdata, hinsert, hfull⟩ := hexceeds
  have hsize := h.size
  have hmod : (s.accumulatedDataSize + 4) % 2 ^ 32 = s.accumulatedDataSize + 4 :=
    Nat.mod_eq_of_lt (by omega)
  exact (insertTerminalCode_full hdata hinsert (by omega)).1

theorem insertTerminalCode_contained (h : Contained c memory s)
    (hmax : c.maximumCodedFrameSize + 4 < 2 ^ 32) :
    Contained c memory (s.insertTerminalCode c) ∧
      Below (s.terminalWrites c) c.maximumCodedFrameSize := by
  have hsize := h.size
  by_cases hasked : s.accumulatedDataSize ≠ 0 ∧ c.insertFrameTerminateCode = true
  · by_cases hroom : s.accumulatedDataSize + 4 ≤ c.maximumCodedFrameSize
    · obtain ⟨heq, hbelow⟩ := accumulateData_room (c := c) (s := s)
        [0x00, 0x00, 0x01, c.terminalCode] hroom (by omega)
      unfold insertTerminalCode terminalWrites
      rw [if_pos hasked, if_pos hasked, heq]
      refine ⟨⟨h.write hroom hroom, fun hgot => ?_⟩, hbelow⟩
      obtain ⟨hstored, hcurrent⟩ := h.header hgot
      exact ⟨Nat.le_trans hstored (Nat.le_add_right _ _), hcurrent⟩
    · have hmod : (s.accumulatedDataSize + 4) % 2 ^ 32 = s.accumulatedDataSize + 4 :=
        Nat.mod_eq_of_lt (by omega)
      obtain ⟨heq, hnone⟩ := insertTerminalCode_full (s := s) hasked.1 hasked.2 (by omega)
      rw [heq, hnone]
      exact ⟨discardAccumulatedData_contained h.toWithin, below_nil _⟩
  · unfold insertTerminalCode terminalWrites
    rw [if_neg hasked, if_neg hasked]
    exact ⟨h, below_nil _⟩

/-! ## A flush -/

theorem outputBuffer_within (h : Within c (env.memory first) s) :
    Within c (env.memory first) (s.outputBuffer env).2 := by
  unfold outputBuffer
  split
  · exact ⟨h.size, h.behind⟩
  · next got hgot =>
    refine ⟨Nat.zero_le _, fun buffer hbuffer a _ => ?_⟩
    have hsame : some got = some buffer := hgot.symm.trans hbuffer
    exact congrFun (Option.some.inj hsame) a

theorem outputBuffer_contained (h : Contained c (env.memory first) s)
    (hfailed : (s.outputBuffer env).1 = false) :
    Contained c (env.memory first) (s.outputBuffer env).2 := by
  unfold outputBuffer at hfailed ⊢
  split
  · exact ⟨⟨h.size, h.behind⟩, h.header⟩
  · next got hgot =>
    rw [hgot] at hfailed
    exact nomatch hfailed

theorem baseFrameFlush_contained (h : Contained c (env.memory first) s)
    (hmax : c.maximumCodedFrameSize + 4 < 2 ^ 32) :
    Within c (env.memory first) (s.baseFrameFlush c env).2 ∧
      ((s.baseFrameFlush c env).1 = false → Contained c (env.memory first) (s.baseFrameFlush c env).2) ∧
        Below (s.flushWrites c) c.maximumCodedFrameSize := by
  unfold baseFrameFlush flushWrites
  split
  · exact ⟨h.toWithin, fun _ => h, below_nil _⟩
  · obtain ⟨hinserted, hbelow⟩ := insertTerminalCode_contained h hmax
    generalize s.insertTerminalCode c = t at hinserted
    dsimp only
    split
    · exact ⟨hinserted.toWithin, fun _ => hinserted, hbelow⟩
    · have hset : Contained c (env.memory first) (t.setUsedDataSize c) := by
        unfold setUsedDataSize
        split
        · exact hinserted
        · exact ⟨⟨hinserted.size, hinserted.behind⟩, hinserted.header⟩
      exact ⟨outputBuffer_within hset.toWithin, outputBuffer_contained hset, hbelow⟩

theorem takeTimes_within (h : Within c memory s) : Within c memory s.takeTimes := by
  unfold takeTimes
  split <;> exact ⟨h.size, h.behind⟩

theorem internalFrameFlush_contained (env : Environment) (h : Contained c (env.memory first) s)
    (hmax : c.maximumCodedFrameSize + 4 < 2 ^ 32) :
    Contained c (env.memory first) (s.internalFrameFlush c env).2 ∧
      Below (s.flushWrites c) c.maximumCodedFrameSize := by
  obtain ⟨hwithin, hfailed, hbelow⟩ := baseFrameFlush_contained h hmax
  refine ⟨?_, hbelow⟩
  unfold internalFrameFlush
  generalize s.baseFrameFlush c env = flushed at hwithin hfailed
  obtain ⟨ok, t⟩ := flushed
  cases ok with
  | false => exact hfailed rfl
  | true =>
    have hflags : Within c (env.memory first)
        { t with
          seekingPesHeader := true
          gotPartialHeader := false
          skipping := 0
          terminationFlagIsSet := false } := ⟨hwithin.size, hwithin.behind⟩
    refine (takeTimes_within hflags).contained ?_
    unfold takeTimes
    split <;> rfl

theorem internalFrameFlush_noHeader (c : Configuration) (env : Environment)
    (hgot : s.gotPartialHeader = false) :
    (s.internalFrameFlush c env).2.gotPartialHeader = false := by
  have hinsert : (s.insertTerminalCode c).gotPartialHeader = false := by
    unfold insertTerminalCode accumulateData
    dsimp only
    split
    · by_cases hfull : c.maximumCodedFrameSize <
          (s.accumulatedDataSize + [0x00, 0x00, 0x01, c.terminalCode].length) % 2 ^ 32
      · rw [if_pos hfull]
        dsimp only
        unfold discardAccumulatedData
        split <;> rfl
      · rw [if_neg hfull]
        exact hgot
    · exact hgot
  have hbase : (s.baseFrameFlush c env).2.gotPartialHeader = false := by
    unfold baseFrameFlush outputBuffer setUsedDataSize
    dsimp only
    split
    · exact hgot
    · split
      · exact hinsert
      · split <;> split <;> exact hinsert
  unfold internalFrameFlush
  generalize s.baseFrameFlush c env = flushed at hbase
  obtain ⟨ok, t⟩ := flushed
  cases ok with
  | false => exact hbase
  | true =>
    unfold takeTimes
    dsimp only
    split <;> rfl

theorem internalFrameFlush_currentSize (c : Configuration) (env : Environment) (s : PesVideo) :
    (s.internalFrameFlush c env).2.gotPartialCurrentSize = s.gotPartialCurrentSize := by
  have hdiscard : ∀ t : PesVideo,
      t.discardAccumulatedData.gotPartialCurrentSize = t.gotPartialCurrentSize := by
    intro t
    unfold discardAccumulatedData
    split <;> rfl
  have hinsert : (s.insertTerminalCode c).gotPartialCurrentSize = s.gotPartialCurrentSize := by
    unfold insertTerminalCode accumulateData
    dsimp only
    split
    · split
      · next heq =>
        split at heq
        · exact nomatch heq
        · obtain rfl := (Prod.mk.inj heq).2
          rfl
      · next heq =>
        split at heq
        · obtain rfl := (Prod.mk.inj heq).2
          exact hdiscard s
        · exact nomatch heq
    · rfl
  have hbase : (s.baseFrameFlush c env).2.gotPartialCurrentSize = s.gotPartialCurrentSize := by
    unfold baseFrameFlush outputBuffer setUsedDataSize
    dsimp only
    split
    · rfl
    · split
      · exact hinsert
      · split <;> split <;> exact hinsert
  unfold internalFrameFlush
  split
  · next heq =>
    rw [heq] at hbase
    exact hbase
  · next heq =>
    rw [heq] at hbase
    unfold takeTimes
    dsimp only
    split <;> exact hbase

/-! ## A pass -/

/-- What an outcome leaves. -/
def OutcomeContained (c : Configuration) (memory : Nat → Option (Nat → Byte)) :
    Outcome PesVideo → Prop
  | .again s _ => Contained c memory s
  | .leave s => Contained c memory s
  | .hang => True

theorem terminateFrame_contained (h : Within c (env.memory first) s)
    (hgot : s.gotPartialHeader = false) (hmax : c.maximumCodedFrameSize + 4 < 2 ^ 32)
    (hroom : s.gotPartialCurrentSize ≤ c.maximumCodedFrameSize) :
    Below (s.terminateWrites c env) c.maximumCodedFrameSize ∧
      ∃ ok t, s.terminateFrame c env = (ok, t) ∧ Within c (env.memory first) t ∧
        t.gotPartialHeader = false ∧
          (ok = true → t.accumulatedDataSize + t.gotPartialCurrentSize ≤ c.maximumCodedFrameSize) := by
  obtain ⟨hflushed, hbelow⟩ := internalFrameFlush_contained env (h.contained hgot) hmax
  have hcurrent := internalFrameFlush_currentSize c env s
  have hnone := internalFrameFlush_noHeader c env hgot
  unfold terminateFrame terminateWrites
  dsimp only
  generalize s.internalFrameFlush c env = flushed at hflushed hcurrent hnone
  obtain ⟨ok, t⟩ := flushed
  cases ok with
  | false =>
    exact ⟨hbelow.append (below_nil _), _, _, rfl, hflushed.toWithin, hnone, fun hok => nomatch hok⟩
  | true =>
    have hlength : (readAt s.bufferBase s.storedPartialHeader s.gotPartialCurrentSize).length =
        s.gotPartialCurrentSize := by
      simp [readAt]
    have hends : 0 + (readAt s.bufferBase s.storedPartialHeader s.gotPartialCurrentSize).length ≤
        c.maximumCodedFrameSize := by
      omega
    have hwritten := hflushed.toWithin.write hends (Nat.zero_le _)
    have hcurrent : t.gotPartialCurrentSize = s.gotPartialCurrentSize := hcurrent
    refine ⟨hbelow.append (below_singleton (by omega)), _, _, rfl,
      ⟨hwritten.size, hwritten.behind⟩, hnone, fun _ => ?_⟩
    dsimp only
    omega

theorem recordStartCode_contained (h : Within c memory s) (hgot : s.gotPartialHeader = false)
    (hroom : s.accumulatedDataSize + s.gotPartialCurrentSize ≤ c.maximumCodedFrameSize)
    (code : Byte) : OutcomeContained c memory (s.recordStartCode c code r) := by
  have hrecorded : ∀ list flag, Contained c memory
      { s with
        startCodeList := list
        accumulatedDataSize := s.accumulatedDataSize + s.gotPartialCurrentSize
        terminationFlagIsSet := flag } :=
    fun _ _ => Within.contained ⟨hroom, h.behind⟩ hgot
  unfold recordStartCode accumulateStartCode
  by_cases hgenerate : c.generateStartCodeList = true
  · rw [hgenerate]
    by_cases hfull : c.maxStartCodes < s.startCodeList.length + 1
    · simp only [Bool.not_true, Bool.false_eq_true, if_false, if_pos hfull]
      exact discardAccumulatedData_contained h
    · simp only [Bool.not_true, Bool.false_eq_true, if_false, if_neg hfull]
      exact hrecorded _ _
  · rw [Bool.eq_false_iff.mpr hgenerate]
    exact hrecorded s.startCodeList _

theorem genericStartCode_contained (env : Environment) (r : Remaining)
    (h : Within c (env.memory first) s) (hmax : c.maximumCodedFrameSize + 4 < 2 ^ 32)
    (hroom : s.accumulatedDataSize + s.gotPartialCurrentSize ≤ c.maximumCodedFrameSize) :
    Below (s.genericWrites c env) c.maximumCodedFrameSize ∧
      OutcomeContained c (env.memory first) (s.genericStartCode c env r) := by
  unfold genericStartCode genericWrites
  dsimp only
  have hasked : ∃ terminates presented flag, s.blockTerminate c env (s.headerByte 3) =
      (terminates, { s with headersPresented := presented, terminationFlagIsSet := flag }) := by
    unfold blockTerminate
    split
    · exact ⟨_, _, _, rfl⟩
    · exact ⟨_, _, _, rfl⟩
  obtain ⟨terminates, presented, flag, hasked⟩ := hasked
  rw [hasked]
  have hwithin : Within c (env.memory first)
      { s with
        gotPartialHeader := false
        headersPresented := presented
        terminationFlagIsSet := flag } := ⟨h.size, h.behind⟩
  cases terminates with
  | false => exact ⟨below_nil _, recordStartCode_contained hwithin rfl hroom _⟩
  | true =>
    obtain ⟨hbelow, ok, t, heq, hterminated, hgot, hnext⟩ :=
      terminateFrame_contained hwithin rfl hmax (Nat.le_trans (Nat.le_add_left _ _) hroom)
    refine ⟨hbelow, ?_⟩
    dsimp only
    rw [if_pos rfl, heq]
    cases ok with
    | false => exact hterminated.contained hgot
    | true => exact recordStartCode_contained hterminated hgot (hnext rfl) _

theorem zeroStartCode_contained (h : Contained c memory s) (hgot : s.gotPartialHeader = true)
    (hroom : s.accumulatedDataSize + s.gotPartialCurrentSize ≤ c.maximumCodedFrameSize) :
    Contained c memory (s.zeroStartCode c env) := by
  obtain ⟨hstored, hcurrent⟩ := h.header hgot
  unfold zeroStartCode
  split
  · refine ⟨⟨?_, h.behind⟩, fun _ => ⟨Nat.add_le_add_right hstored 3, Nat.le_refl 4⟩⟩
    dsimp only
    omega
  · exact ⟨⟨h.size, h.behind⟩, fun _ => ⟨hstored, hcurrent⟩⟩

theorem pesStartCode_contained (r : Remaining) (h : Within c memory s) :
    OutcomeContained c memory (s.pesStartCode c env r) := by
  unfold pesStartCode readPesHeader
  cases Pes.readPesHeader s.bufferBase c.header env.stuffingLimit s.storedPartialHeader
      { s.pes with
        codedFrame := frameTimes s.codedFrameParameters
        accumulatedDataSize := BitVec.ofNat 32 s.accumulatedDataSize } with
  | none => trivial
  | some read =>
    obtain ⟨status, pes⟩ := read
    have hread : Contained c memory
        { s with
          gotPartialHeader := false
          pes := pes
          codedFrameParameters := s.codedFrameParameters.setTimes pes.codedFrame } :=
      Within.contained ⟨h.size, h.behind⟩ rfl
    cases status with
    | collatorNoError =>
      dsimp only [Option.map]
      split
      · exact Within.contained ⟨Nat.zero_le _, h.behind⟩ rfl
      · exact hread
    | collatorError => exact hread
    | collatorWouldBlock => exact hread
    | collatorBufferOverflow => exact hread

theorem headerPass_contained (env : Environment) (h : Contained c (env.memory first) s)
    (hgot : s.gotPartialHeader = true) (hmax : c.maximumCodedFrameSize + 4 < 2 ^ 32)
    (hroom : s.accumulatedDataSize + (s.collectHeader r).1.gotPartialCurrentSize ≤
      c.maximumCodedFrameSize) :
    Below (s.headerWrites c env r) c.maximumCodedFrameSize ∧
      OutcomeContained c (env.memory first) (s.headerPass c env r) := by
  obtain ⟨hstored, hcurrent⟩ := h.header hgot
  have hlength : ∀ n, (r.read 0 n).length = n := r.length_read 0
  have hends : s.storedPartialHeader + s.gotPartialCurrentSize +
      min r.length.toNat (s.gotPartialDesiredSize - s.gotPartialCurrentSize) ≤
        c.maximumCodedFrameSize := by
    have hroom' : s.accumulatedDataSize + (s.gotPartialCurrentSize +
        min r.length.toNat (s.gotPartialDesiredSize - s.gotPartialCurrentSize)) ≤
          c.maximumCodedFrameSize := hroom
    omega
  have hwritten := h.toWithin.write (le_of_eq_of_le (congrArg _ (hlength _)) hends) h.size
  -- the header as far as it is there is one that is contained
  have hcollected : Contained c (env.memory first) (s.collectHeader r).1 :=
    ⟨⟨hwritten.size, hwritten.behind⟩,
      fun _ => ⟨hstored, Nat.le_trans hcurrent (Nat.le_add_right _ _)⟩⟩
  have hgot' : (s.collectHeader r).1.gotPartialHeader = true := hgot
  have hsize : (s.collectHeader r).1.accumulatedDataSize = s.accumulatedDataSize := rfl
  have hbelow : Below (s.collectWrites r) c.maximumCodedFrameSize := below_singleton hends
  unfold headerPass headerWrites
  generalize s.collectHeader r = collected at hcollected hgot' hsize hroom
  obtain ⟨t, r⟩ := collected
  dsimp only at hcollected hgot' hsize hroom ⊢
  rw [← hsize] at hroom
  by_cases hcomplete : t.gotPartialDesiredSize ≤ t.gotPartialCurrentSize
  · rw [if_neg (Nat.not_lt.mpr hcomplete)]
    cases htype : t.gotPartialType with
    | headerZeroStartCode =>
      rw [if_neg fun hboth => nomatch hboth.2]
      exact ⟨hbelow.append (below_nil _), zeroStartCode_contained hcollected hgot' hroom⟩
    | headerPesStartCode =>
      rw [if_neg fun hboth => nomatch hboth.2]
      refine ⟨hbelow.append (below_nil _), ?_⟩
      have hpes : ∀ {u : PesVideo}, Contained c (env.memory first) u →
          OutcomeContained c (env.memory first)
            (if u.gotPartialCurrentSize < u.gotPartialDesiredSize then .again u r
            else u.pesStartCode c env r) := by
        intro u hu
        split
        · exact hu
        · exact pesStartCode_contained r hu.toWithin
      dsimp only
      by_cases hinitial : Pes.pesInitialHeaderSize ≤ t.gotPartialCurrentSize
      · rw [if_pos hinitial]
        exact hpes ⟨⟨hcollected.size, hcollected.behind⟩, hcollected.header⟩
      · rw [if_neg hinitial]
        exact hpes hcollected
    | headerPaddingStartCode =>
      rw [if_neg fun hboth => nomatch hboth.2]
      exact ⟨hbelow.append (below_nil _), Within.contained ⟨hcollected.size, hcollected.behind⟩ rfl⟩
    | headerGenericStartCode =>
      rw [if_pos ⟨hcomplete, rfl⟩]
      obtain ⟨hgeneric, hout⟩ := genericStartCode_contained env r hcollected.toWithin hmax hroom
      exact ⟨hbelow.append hgeneric, hout⟩
  · rw [if_pos (Nat.not_le.mp hcomplete), if_neg fun hboth => hcomplete hboth.1]
    exact ⟨hbelow.append (below_nil _), hcollected⟩

theorem beginHeader_contained (h : Within c memory s) : Contained c memory (s.beginHeader c env) := by
  have hbegun : ∀ type desired, Contained c memory
      { s with
        gotPartialHeader := true
        gotPartialCurrentSize := 4
        storedPartialHeader := s.accumulatedDataSize
        gotPartialType := type
        gotPartialDesiredSize := desired } :=
    fun _ _ => ⟨⟨h.size, h.behind⟩, fun _ => ⟨Nat.le_refl _, Nat.le_refl 4⟩⟩
  unfold beginHeader
  dsimp only
  split
  · exact hbegun _ _
  · split
    · split
      · exact hbegun _ _
      · exact Within.contained ⟨h.size, h.behind⟩ rfl
    · split
      · exact hbegun _ _
      · split
        · exact Within.contained ⟨Nat.zero_le _, h.behind⟩ rfl
        · exact hbegun _ _

theorem codePass_contained (env : Environment) (h : Within c memory s)
    (hgot : s.gotPartialHeader = false) (hskipping : s.skipping = 0)
    (hmax : c.maximumCodedFrameSize < 2 ^ 32) (hroomy : s.Roomy c r) :
    Below (s.codeWrites c r) c.maximumCodedFrameSize ∧
      OutcomeContained c memory (s.codePass c env r) ∧
        (s.Exceeds c r → s.codeStatus c r = some .collatorBufferOverflow ∧
          ∃ times, s.codePass c env r =
            .leave { s with pes := times }.discardAccumulatedData) := by
  have htimes : ∀ times, Within c memory { s with pes := times } := fun _ => ⟨h.size, h.behind⟩
  unfold Roomy Exceeds brought found at hroomy
  unfold Exceeds codePass codeWrites codeStatus accumulateStatus brought found
  rw [if_neg (Bool.eq_false_iff.mp hgot), if_neg (not_not_intro hskipping)] at hroomy ⊢
  generalize lookForCode c.toCodeConfiguration (readAt s.bufferBase 0 s.accumulatedDataSize) r s.pes =
    looked at hroomy ⊢
  obtain ⟨found, times⟩ := looked
  cases found with
  | spanning count =>
    -- the bytes of a code that is cut are not looked at
    have hroom : s.accumulatedDataSize + count ≤ c.maximumCodedFrameSize :=
      Nat.le_of_not_lt fun hexceeds => nomatch (hroomy hexceeds).1
    have hends : s.accumulatedDataSize + (r.read 0 count).length ≤ c.maximumCodedFrameSize := by
      rw [Remaining.length_read]
      exact hroom
    have hsize : s.accumulatedDataSize + count - 4 ≤ c.maximumCodedFrameSize := by omega
    have hwritten := h.write hends hsize
    refine ⟨below_singleton hroom, ?_, fun hexceeds => absurd hexceeds (Nat.not_lt.mpr hroom)⟩
    exact beginHeader_contained (s :=
      { s with
        pes := times
        bufferBase := writeAt s.bufferBase s.accumulatedDataSize (r.read 0 count)
        accumulatedDataSize := s.accumulatedDataSize + count - 4 }) ⟨hwritten.size, hwritten.behind⟩
  | nothing =>
    have hlength : r.bytes.length = r.length.toNat := r.length_bytes
    dsimp only at hroomy ⊢
    rw [← hlength] at hroomy ⊢
    by_cases hexceeds : c.maximumCodedFrameSize < s.accumulatedDataSize + r.bytes.length
    · obtain ⟨hrefused, -⟩ :=
        accumulateData_full (s := { s with pes := times }) r.bytes (hroomy hexceeds).2.2
      obtain ⟨hstatus, hwrites⟩ := accumulateData_full r.bytes (hroomy hexceeds).2.2
      rw [hrefused, hstatus, hwrites]
      exact ⟨below_nil _, discardAccumulatedData_contained (htimes times), fun _ => ⟨rfl, times, rfl⟩⟩
    · have hroom := Nat.le_of_not_lt hexceeds
      obtain ⟨haccepted, hbelow⟩ :=
        accumulateData_room (s := { s with pes := times }) r.bytes hroom hmax
      rw [haccepted]
      have hwritten := h.write hroom hroom
      exact ⟨hbelow, Within.contained ⟨hwritten.size, hwritten.behind⟩ hgot,
        fun hexceeds' => absurd hexceeds' hexceeds⟩
  | code offset =>
    have hlength : (r.read 0 (offset + 4)).length = offset + 4 := r.length_read 0 _
    dsimp only at hroomy ⊢
    rw [← hlength] at hroomy
    by_cases hexceeds : c.maximumCodedFrameSize <
        s.accumulatedDataSize + (r.read 0 (offset + 4)).length
    · obtain ⟨hrefused, -⟩ :=
        accumulateData_full (s := { s with pes := times }) (r.read 0 (offset + 4)) (hroomy hexceeds).2.2
      obtain ⟨hstatus, hwrites⟩ := accumulateData_full (r.read 0 (offset + 4)) (hroomy hexceeds).2.2
      rw [hrefused, hstatus, hwrites]
      exact ⟨below_nil _, discardAccumulatedData_contained (htimes times), fun _ => ⟨rfl, times, rfl⟩⟩
    · have hroom := Nat.le_of_not_lt hexceeds
      obtain ⟨haccepted, hbelow⟩ :=
        accumulateData_room (s := { s with pes := times }) (r.read 0 (offset + 4)) hroom hmax
      rw [haccepted]
      have hsize : s.accumulatedDataSize + (r.read 0 (offset + 4)).length - 4 ≤
          c.maximumCodedFrameSize := by omega
      have hwritten := h.write hroom hsize
      refine ⟨hbelow, ?_, fun hexceeds' => absurd (by omega) hexceeds⟩
      exact beginHeader_contained (s :=
        { s with
          pes := times
          bufferBase := writeAt s.bufferBase s.accumulatedDataSize (r.read 0 (offset + 4))
          accumulatedDataSize := s.accumulatedDataSize + (r.read 0 (offset + 4)).length - 4 })
        ⟨hwritten.size, hwritten.behind⟩

theorem pass_contained (env : Environment) (h : Contained c (env.memory first) s)
    (hmax : c.maximumCodedFrameSize + 4 < 2 ^ 32) (hroomy : s.Roomy c r) :
    Below (s.passWrites c env r) c.maximumCodedFrameSize ∧
      OutcomeContained c (env.memory first) (s.pass c env r) ∧
        (s.Exceeds c r → s.codeStatus c r = some .collatorBufferOverflow ∧
          ∃ times, s.pass c env r = .leave { s with pes := times }.discardAccumulatedData) := by
  by_cases hgot : s.gotPartialHeader = true
  · have hbrought : s.brought c r = ((s.collectHeader r).1.gotPartialCurrentSize, false) := if_pos hgot
    have hroom : ¬ s.Exceeds c r := by
      intro hexceeds
      have hlooked := (hroomy hexceeds).1
      rw [hbrought] at hlooked
      exact nomatch hlooked
    have hends : s.accumulatedDataSize + (s.collectHeader r).1.gotPartialCurrentSize ≤
        c.maximumCodedFrameSize := by
      unfold Exceeds at hroom
      rw [hbrought] at hroom
      exact Nat.le_of_not_lt hroom
    obtain ⟨hbelow, hout⟩ := headerPass_contained env h hgot hmax hends
    unfold passWrites pass
    rw [if_pos hgot, if_pos hgot]
    exact ⟨hbelow, hout, fun hexceeds => absurd hexceeds hroom⟩
  · have hnone := Bool.eq_false_iff.mpr hgot
    by_cases hskipping : s.skipping = 0
    · have hpass : s.pass c env r = s.codePass c env r := by
        unfold pass
        rw [if_neg hgot, if_neg (not_not_intro hskipping)]
      have hwrites : s.passWrites c env r = s.codeWrites c r := by
        unfold passWrites
        rw [if_neg hgot, if_neg (not_not_intro hskipping)]
      rw [hpass, hwrites]
      exact codePass_contained env h.toWithin hnone hskipping (by omega) hroomy
    · have hsize := h.size
      have hroom : ¬ s.Exceeds c r := by
        unfold Exceeds brought
        rw [if_neg hgot, if_pos hskipping]
        exact Nat.not_lt.mpr hsize
      unfold passWrites pass
      rw [if_neg hgot, if_pos hskipping, if_neg hgot, if_pos hskipping]
      exact ⟨below_nil _, Within.contained ⟨h.size, h.behind⟩ hnone,
        fun hexceeds => absurd hexceeds hroom⟩

/-! ## What else is done with a collator -/

theorem inputExit_contained (h : Contained c (env.memory first) s)
    (hmax : c.maximumCodedFrameSize + 4 < 2 ^ 32) :
    Contained c (env.memory first) (s.inputExit c env) ∧
      Below (s.exitWrites c) c.maximumCodedFrameSize := by
  unfold inputExit exitWrites
  split
  · obtain ⟨hflushed, hbelow⟩ := internalFrameFlush_contained env h hmax
    exact ⟨⟨⟨hflushed.size, hflushed.behind⟩, hflushed.header⟩, hbelow⟩
  · exact ⟨h, below_nil _⟩

theorem inputExit_ready (h : Ready s) (hparameters : s.codedFrameParameters = .zero) :
    Ready (s.inputExit c env) := by
  unfold inputExit
  split
  · have hnothing : s.nothingToFlush = true := by
      unfold nothingToFlush
      rw [h.size, hparameters]
      rfl
    unfold internalFrameFlush baseFrameFlush
    rw [if_pos hnothing]
    unfold takeTimes
    dsimp only
    split <;> exact ⟨h.has, h.size, h.codes, rfl, rfl, rfl⟩
  · exact h

theorem inputJump_contained (h : Contained c (env.memory first) s)
    (hmax : c.maximumCodedFrameSize + 4 < 2 ^ 32) (surplus continuous : Bool) :
    Contained c (env.memory first) (s.inputJump c env surplus continuous) ∧
      Below (s.jumpWrites c env surplus continuous) c.maximumCodedFrameSize := by
  obtain ⟨hflushed, hbelow⟩ := internalFrameFlush_contained env h hmax
  have hfirst : Contained c (env.memory first)
      (if surplus then s.discardAccumulatedData else (s.internalFrameFlush c env).2) := by
    split
    · exact discardAccumulatedData_contained h.toWithin
    · exact hflushed
  have hwrites : Below (if surplus then [] else s.flushWrites c) c.maximumCodedFrameSize := by
    split
    · exact below_nil _
    · exact hbelow
  unfold inputJump jumpWrites
  dsimp only
  generalize (if surplus then s.discardAccumulatedData
    else (s.internalFrameFlush c env).2) = t at hfirst
  obtain ⟨hsecond, hbelow'⟩ := internalFrameFlush_contained env
    (s :=
      { t with
        codedFrameParameters :=
          { t.codedFrameParameters with
            streamDiscontinuity := true
            flushBeforeDiscontinuity := surplus
            continuousReverseJump := continuous } })
    ⟨⟨hfirst.size, hfirst.behind⟩, hfirst.header⟩ hmax
  exact ⟨⟨⟨hsecond.size, hsecond.behind⟩, hsecond.header⟩, hwrites.append hbelow'⟩

end

end PesVideo

/-! ## Runs -/

namespace Session

section

variable (c : Configuration) (env : Environment) (m : Session)

/-- The extents an event writes in the coded frame buffer. -/
def writes : Event → List Extent
  | .input .. => []
  | .pass =>
    match m.input with
    | none => []
    | some r =>
      if r.length = 0 then m.collator.exitWrites c
      else
        m.collator.passWrites c env r ++
          match m.collator.pass c env r with
          | .again _ _ => []
          | .leave s => s.exitWrites c
          | .hang => []
  | .frameFlush =>
    match m.input with
    | none => m.collator.flushWrites c
    | some _ => []
  | .inputJump surplus continuous =>
    match m.input with
    | none => m.collator.jumpWrites c env surplus continuous
    | some _ => []
  | .discardAccumulatedData => []

/-- The pass that is to come, with what remains of the data. -/
def passing : Event → Option Remaining
  | .pass => m.input.filter fun r => r.length ≠ 0
  | _ => none

/-- What an event asks of the session it finds: that a pass has room. -/
def Roomy (event : Event) : Prop := ∀ r ∈ m.passing event, m.collator.Roomy c r

instance (event : Event) : Decidable (m.Roomy c event) :=
  inferInstanceAs (Decidable (∀ r ∈ _, _))

/-- What is asked of an event, with the memory that was got when the output ring was
registered. -/
structure Contained (first : Nat → Byte) (event : Event) : Prop where
  /-- Nothing is written behind the limit. -/
  writes : Below (m.writes c env event) c.maximumCodedFrameSize
  size : (step c env m event).collator.accumulatedDataSize ≤ c.maximumCodedFrameSize
  /-- The memory behind it is as it was got. -/
  behind : ∀ buffer, env.memory first (step c env m event).collator.buffersGot = some buffer →
    ∀ a, c.maximumCodedFrameSize ≤ a → (step c env m event).collator.bufferBase a = buffer a
  /-- What would end there is discarded with an error, and the next frame can begin. -/
  discarded : ∀ r ∈ m.passing event, m.collator.Exceeds c r →
    m.collator.codeStatus c r = some .collatorBufferOverflow ∧
      (step c env m event).input = none ∧ (step c env m event).collator.Ready
  /-- So is a frame that has no room for the terminal code it is put out with. -/
  terminal : m.collator.TerminalExceeds c →
    m.collator.insertTerminalCode c = m.collator.discardAccumulatedData

end

section

variable {c : Configuration} {env : Environment} {first : Nat → Byte} {m : Session}

theorem step_contained (hmax : c.maximumCodedFrameSize + 4 < 2 ^ 32) {event : Event}
    (hroomy : m.Roomy c event) (h : m.collator.Contained c (env.memory first)) :
    (step c env m event).collator.Contained c (env.memory first) ∧
      Below (m.writes c env event) c.maximumCodedFrameSize ∧
        ∀ r ∈ m.passing event, m.collator.Exceeds c r →
          m.collator.codeStatus c r = some .collatorBufferOverflow ∧
            (step c env m event).input = none ∧ (step c env m event).collator.Ready := by
  cases event with
  | input descriptor data length =>
    refine ⟨?_, below_nil _, fun r hr => nomatch hr⟩
    dsimp only [step]
    split
    · exact ⟨⟨h.size, h.behind⟩, h.header⟩
    · exact h
  | pass =>
    dsimp only [step, writes]
    cases hinput : m.input with
    | none =>
      refine ⟨h, below_nil _, fun r hr => ?_⟩
      unfold passing at hr
      rw [hinput] at hr
      exact nomatch hr
    | some r =>
      dsimp only
      by_cases hlength : r.length = 0
      · rw [if_pos hlength, if_pos hlength]
        obtain ⟨hexit, hbelow⟩ := PesVideo.inputExit_contained h hmax
        refine ⟨hexit, hbelow, fun r' hr' => ?_⟩
        unfold passing at hr'
        rw [hinput, Option.mem_def, Option.filter_eq_some_iff] at hr'
        obtain ⟨hsame, hpos⟩ := hr'
        obtain rfl := Option.some.inj hsame
        exact absurd hlength (of_decide_eq_true hpos)
      · rw [if_neg hlength, if_neg hlength]
        have hpassing : m.passing .pass = some r := by
          unfold passing
          rw [hinput]
          exact Option.filter_eq_some_iff.mpr ⟨rfl, decide_eq_true hlength⟩
        obtain ⟨hbelow, hout, hdiscarded⟩ :=
          PesVideo.pass_contained env h hmax (hroomy r hpassing)
        have hrefused : m.collator.Exceeds c r →
            m.collator.codeStatus c r = some .collatorBufferOverflow ∧
              ∃ times, m.collator.pass c env r =
                .leave { m.collator with pes := times }.discardAccumulatedData ∧
                  m.collator.hasCodedFrameBuffer = true := by
          intro hexceeds
          obtain ⟨hstatus, times, hpass⟩ := hdiscarded hexceeds
          exact ⟨hstatus, times, hpass, (hroomy r hpassing hexceeds).2.1⟩
        rw [hpassing]
        cases hpass : m.collator.pass c env r with
        | again s rest =>
          rw [hpass] at hout hrefused
          refine ⟨hout, hbelow.append (below_nil _), fun r' hr' hexceeds => ?_⟩
          obtain rfl := Option.some.inj hr'
          obtain ⟨-, times, hleave, -⟩ := hrefused hexceeds
          exact nomatch hleave
        | leave s =>
          rw [hpass] at hout hrefused
          obtain ⟨hexit, hbelow'⟩ := PesVideo.inputExit_contained hout hmax
          refine ⟨hexit, hbelow.append hbelow', fun r' hr' hexceeds => ?_⟩
          obtain rfl := Option.some.inj hr'
          obtain ⟨hstatus, times, hleave, has⟩ := hrefused hexceeds
          obtain rfl := Outcome.leave.inj hleave
          have hready : PesVideo.Ready { m.collator with pes := times }.discardAccumulatedData :=
            PesVideo.discardAccumulatedData_ready has
          refine ⟨hstatus, rfl, PesVideo.inputExit_ready hready ?_⟩
          unfold PesVideo.discardAccumulatedData
          rw [if_pos has]
        | hang =>
          rw [hpass] at hrefused
          refine ⟨h, hbelow.append (below_nil _), fun r' hr' hexceeds => ?_⟩
          obtain rfl := Option.some.inj hr'
          obtain ⟨-, times, hleave, -⟩ := hrefused hexceeds
          exact nomatch hleave
  | frameFlush =>
    obtain ⟨hflushed, hbelow⟩ := PesVideo.internalFrameFlush_contained env h hmax
    dsimp only [step, writes]
    cases m.input with
    | none => exact ⟨hflushed, hbelow, fun r hr => nomatch hr⟩
    | some _ => exact ⟨⟨⟨h.size, h.behind⟩, h.header⟩, below_nil _, fun r hr => nomatch hr⟩
  | inputJump surplus continuous =>
    obtain ⟨hjumped, hbelow⟩ := PesVideo.inputJump_contained h hmax surplus continuous
    dsimp only [step, writes]
    cases m.input with
    | none => exact ⟨hjumped, hbelow, fun r hr => nomatch hr⟩
    | some _ => exact ⟨h, below_nil _, fun r hr => nomatch hr⟩
  | discardAccumulatedData =>
    refine ⟨?_, below_nil _, fun r hr => nomatch hr⟩
    dsimp only [step]
    split
    · exact PesVideo.discardAccumulatedData_contained h.toWithin
    · exact h

theorem registered_contained (c : Configuration) (env : Environment) (first : Nat → Byte)
    (pes : Pes.PesTimes) :
    (registered first pes).collator.Contained c (env.memory first) := by
  refine PesVideo.Within.contained ⟨Nat.zero_le _, fun buffer hbuffer a _ => ?_⟩ rfl
  exact congrFun (Option.some.inj hbuffer) a

/-- In every run whose passes have room, nothing is written behind the limit, no more is
accumulated, and a frame that would be larger is discarded. -/
theorem run_contained (c : Configuration) (env : Environment) (first : Nat → Byte)
    (pes : Pes.PesTimes) (events : List Event) (hmax : c.maximumCodedFrameSize + 4 < 2 ^ 32)
    (hroomy : Along (step c env) (Roomy c) (registered first pes) events) :
    Along (step c env) (Contained c env · first) (registered first pes) events := by
  refine Along.of_step (P := fun m : Session => m.collator.Contained c (env.memory first))
    (fun {m event} hok h => ?_) hroomy (registered_contained c env first pes)
  obtain ⟨hnext, hwrites, hdiscarded⟩ := step_contained hmax hok h
  exact ⟨hnext, hwrites, hnext.size, hnext.behind, hdiscarded, h.terminal hmax⟩

/-! ## A frame of nearly the size it can have -/

/-- As `Collator_PesVideoMpeg2_c` is configured, for frames of no more than so many bytes. -/
def mpeg2 (maximumCodedFrameSize : Nat) : Configuration where
  maxStartCodes := 256
  streamIdentifierMask := 0xf0
  streamIdentifierCode := 0xe0
  ignoreCodesRangeStart := 0x02
  ignoreCodesRangeEnd := 0xaf
  header := ⟨0, 0, 0⟩
  generateStartCodeList := true
  blockTerminateMask := 0xff
  blockTerminateCode := 0x00
  streamTerminateFlushesFrame := true
  streamTerminationCode := 0xb7
  insertFrameTerminateCode := true
  terminalCode := 0xb7
  deferredTerminateFlag := false
  determineFrameBoundariesByPresentationToFrameParser := false
  maximumCodedFrameSize := maximumCodedFrameSize

def anEnvironment : Environment := ⟨fun _ => 0, fun _ _ _ => false, fun _ => none, 0⟩

def noTimes : Pes.PesTimes :=
  ⟨⟨false, 0, false, 0⟩, ⟨false, 0, false, 0⟩, false, 0, 0, ⟨false, 0, false, 0⟩, 0⟩

/-- A chunk, with what is behind it in memory, and so many passes over it. -/
def chunk (data : List Byte) (passes : Nat) : List Event :=
  .input ⟨⟨false, 0, false, 0⟩, 0⟩ (fun i => data.getD i.toNat 0xff) (BitVec.ofNat 32 data.length)
    :: List.replicate passes .pass

/-- A chunk with no start code does not fit behind another, and is discarded with it. -/
theorem run_contained_discarded :
    Along (step (mpeg2 16) anEnvironment) (Contained (mpeg2 16) anEnvironment · fun _ => 0)
      (registered (fun _ => 0) noTimes)
      (chunk (List.replicate 12 0x10) 1 ++ chunk (List.replicate 5 0x10) 1) :=
  run_contained _ _ _ _ _ (by decide) (by decide +kernel)

/-- The frame is as large as it can be where it ends with all of a start code but its last
byte, and this is written behind the limit. -/
theorem spanning_code_behind :
    ¬ Along (step (mpeg2 16) anEnvironment) (Contained (mpeg2 16) anEnvironment · fun _ => 0)
      (registered (fun _ => 0) noTimes)
      (chunk (List.replicate 13 0x10 ++ [0x00, 0x00, 0x01]) 1 ++ chunk [0xb3] 1) := by
  rintro ⟨-, -, -, hspanning, -⟩
  have hwritten := hspanning.writes 16 (Nat.le_refl 16)
  exact absurd hwritten (by decide +kernel)

end

end Session

end Duckbox.Collator
