import Duckbox.ClassDefinitions.Rational

/-!
# The output coordinator

`OutputCoordinator_Base_c` at speed 1 forward, with a system clock adjustment of
1 and no external time mapping: the master mapping of playback time to system
time, that of every stream, and the jumps in playback time each has followed.

A step is a section in which the lock is held, or a function that takes it for
parts of its work: `SynchronizeStreams` is entered, starts to wait and passes
through its loop in steps of their own, so that streams interleave in it. What
a step reads from elsewhere (the clock, `RestartTime` and `VideoFrameDuration`,
policies) comes with its event.
-/

namespace Duckbox.OutputCoordinator

open ClassDefinitions

/-- `OutputCoordinatorContext_s`, as far as mappings go. -/
structure Context where
  /-- `StreamType` is `StreamTypeVideo`. -/
  video : Bool
  inStartupDelay : Bool
  inSynchronizeFn : Bool
  synchronizingAtPlaybackTime : BitVec 64
  timeMappingEstablished : Bool
  baseSystemTimeAdjusted : Bool
  basedOnMasterMappingVersion : BitVec 32
  baseSystemTime : BitVec 64
  baseNormalizedPlaybackTime : BitVec 64
  accumulatedPlaybackTimeJumps : BitVec 64
  allowedToAdjustMappingBase : Bool
  streamOffset : BitVec 64
deriving DecidableEq, Repr

/-- `OutputCoordinator_Base_c`. A stream's number stands for the pointer to its context,
and no number for `PlaybackContext`. -/
structure Base where
  coordinatedContexts : List Nat
  context : Nat → Context
  streamCount : BitVec 32
  streamsInSynchronize : BitVec 32
  masterTimeMappingEstablished : Bool
  masterTimeMappingVersion : BitVec 32
  masterBaseSystemTime : BitVec 64
  masterBaseNormalizedPlaybackTime : BitVec 64
  gotAVideoStream : Bool
  accumulatedPlaybackTimeJumps : BitVec 64
  jumpSeenAtPlaybackTime : BitVec 64
  minimumStreamOffset : BitVec 64

/-! ## Constants -/

def negativeReasonableLimit : BitVec 64 := -4000000

def positiveReasonableLimit : BitVec 64 := 4000000

def rebaseTimeTriggerValue : BitVec 64 := 0x10000000

def playbackTimeJumpError : BitVec 64 := 64000

def otherStreamsMustFollowJumpBy : BitVec 64 := 250000

def maxSynchronizationWindow : BitVec 64 := 10000000

/-- `INVALID_TIME`. -/
def invalidTime : BitVec 64 := 0xfeedfacedeadbeef

/-- `inrange` of `long long`s. -/
def inrange (val lower upper : BitVec 64) : Bool := lower.sle val && val.sle upper

namespace Base

/-! ## Streams -/

/-- `Reset`. -/
def reset : Base where
  coordinatedContexts := []
  context _ := ⟨false, false, false, 0, false, false, 0, 0, 0, 0, false, 0⟩
  streamCount := 0
  streamsInSynchronize := 0
  masterTimeMappingEstablished := false
  masterTimeMappingVersion := 0
  masterBaseSystemTime := 0
  masterBaseNormalizedPlaybackTime := 0
  gotAVideoStream := false
  accumulatedPlaybackTimeJumps := 0
  jumpSeenAtPlaybackTime := 0
  minimumStreamOffset := 0

/-- A context is written. -/
def write (s : Base) (id : Nat) (c : Context) : Base :=
  { s with context := Function.update s.context id c }

/-- `RegisterStream`, with a context that is new. -/
def registerStream (s : Base) (id : Nat) (video : Bool) : Base :=
  if id ∈ s.coordinatedContexts then s
  else
    { s.write id ⟨video, false, false, 0, false, false, 0, 0, 0, 0, !s.gotAVideoStream && video,
        invalidTime⟩ with
      gotAVideoStream := s.gotAVideoStream || video
      coordinatedContexts := id :: s.coordinatedContexts
      streamCount := s.streamCount + 1 }

/-- `DeRegisterStream`, which waits for the stream to leave `SynchronizeStreams`. -/
def deRegisterStream (s : Base) (id : Nat) : Base :=
  if id ∈ s.coordinatedContexts ∧ !(s.context id).inStartupDelay ∧ !(s.context id).inSynchronizeFn then
    let others := s.coordinatedContexts.erase id
    let s := if (s.context id).allowedToAdjustMappingBase then
        match others.find? fun other => (s.context other).video with
        | some other =>
          { s.write other { s.context other with allowedToAdjustMappingBase := true } with
            gotAVideoStream := true }
        | none => { s with gotAVideoStream := false }
      else s
    { s with coordinatedContexts := others, streamCount := s.streamCount - 1 }
  else s

/-! ## Translation -/

/-- `RoundedLongLongIntegerPart( ElapsedSystemTime / SystemClockAdjustment )`. The
division with a rational on the right takes an `int` on the left. -/
def adjustedElapsed (elapsed : BitVec 64) : BitVec 64 :=
  (Rational.intDiv (elapsed.setWidth 32) (.ofInt 1)).roundedLongLongIntegerPart

/-- `TranslatePlaybackTimeToSystem`: the state with what is rebased, and the system
time, if there is a mapping. At speed 1 forward `SpeedScale` is the identity. -/
def translatePlaybackTimeToSystem (s : Base) (id : Option Nat) (playbackTime : BitVec 64) :
    Base × Option (BitVec 64) :=
  if !s.masterTimeMappingEstablished then (s, none)
  else
    match id with
    | none =>
      let elapsed := adjustedElapsed (playbackTime - s.masterBaseNormalizedPlaybackTime)
      let systemTime := s.masterBaseSystemTime + elapsed
      (if elapsed > rebaseTimeTriggerValue then
          { s with
            masterBaseNormalizedPlaybackTime := playbackTime
            masterBaseSystemTime := systemTime }
        else s, some systemTime)
    | some id =>
      let c := s.context id
      if !c.timeMappingEstablished then (s, none)
      else
        let elapsed := adjustedElapsed (playbackTime - c.baseNormalizedPlaybackTime)
        let systemTime := c.baseSystemTime + elapsed
        (if elapsed > rebaseTimeTriggerValue then
            let s := if s.masterBaseSystemTime = c.baseSystemTime then
                { s with
                  masterBaseNormalizedPlaybackTime := playbackTime
                  masterBaseSystemTime := systemTime }
              else s
            s.write id { c with
              baseNormalizedPlaybackTime := playbackTime
              baseSystemTime := systemTime }
          else s, some systemTime)

/-! ## Synchronization -/

/-- "Context->StreamOffset < MinimumStreamOffset". -/
def lowerMinimum (s : Base) (id : Nat) : Base :=
  if (s.context id).streamOffset.slt s.minimumStreamOffset then
    { s with minimumStreamOffset := (s.context id).streamOffset }
  else s

/-- The stream switches to the master mapping, which it is so far ahead of. -/
def switchMapping (s : Base) (id : Nat) (playbackTime ahead : BitVec 64) : Base :=
  let s := s.write id { s.context id with
    accumulatedPlaybackTimeJumps := 0
    baseSystemTimeAdjusted := true
    baseSystemTime := s.masterBaseSystemTime
    baseNormalizedPlaybackTime := s.masterBaseNormalizedPlaybackTime
    timeMappingEstablished := true
    basedOnMasterMappingVersion := s.masterTimeMappingVersion
    streamOffset := ahead }
  let s := s.lowerMinimum id
  let s := (s.translatePlaybackTimeToSystem (some id) playbackTime).1
  s.write id { s.context id with inStartupDelay := false }

/-- "There is now no valid master time mapping." -/
def dropMapping (s : Base) : Base :=
  { s with masterTimeMappingEstablished := false, minimumStreamOffset := 0 }

/-- `AlternateMappingIsReasonable`, of the master mapping's time for a frame. -/
def mappingIsReasonable (ahead : BitVec 64) : Bool :=
  ahead > negativeReasonableLimit || ahead < positiveReasonableLimit

/-- "Is there an appropriate time mapping we can switch to." -/
def switchOrDrop (s : Base) (id : Nat) (playbackTime now : BitVec 64) : Base :=
  if s.masterTimeMappingEstablished &&
      (s.context id).basedOnMasterMappingVersion != s.masterTimeMappingVersion then
    let (s, masterMapping) := s.translatePlaybackTimeToSystem none playbackTime
    let ahead := masterMapping.getD 0 - now
    if mappingIsReasonable ahead then s.switchMapping id playbackTime ahead else s.dropMapping
  else s.dropMapping

/-- The entry of `SynchronizeStreams`. -/
def synchronizeEnter (s : Base) (id : Nat) (playbackTime now : BitVec 64) : Base :=
  (s.write id { s.context id with inStartupDelay := true }).switchOrDrop id playbackTime now

/-- After the startup delay a stream adds itself to those that synchronize. -/
def synchronizeStart (s : Base) (id : Nat) (playbackTime : BitVec 64) : Base :=
  { s.write id { s.context id with
      inStartupDelay := false
      inSynchronizeFn := true
      synchronizingAtPlaybackTime := playbackTime } with
    streamsInSynchronize := s.streamsInSynchronize + 1 }

/-- The synchronizing stream of those given that is earliest, the first of equals. -/
def earliest (s : Base) (ids : List Nat) : Option Nat :=
  ids.foldl (fun found id =>
    if (s.context id).inSynchronizeFn then
      match found with
      | none => some id
      | some e =>
        if (s.context e).synchronizingAtPlaybackTime > (s.context id).synchronizingAtPlaybackTime then
          some id
        else some e
    else found) none

/-- What a pass of the loop reads: whether the stream has waited long enough,
`RestartTime` and the `VideoFrameDuration` it leaves, and `PolicyVideoStartImmediate`. -/
structure Pass where
  waitedOut : Bool
  restartTime : BitVec 64
  videoFrameDuration : BitVec 64
  videoStartImmediate : Bool

/-- "Establish the mapping", from the streams that synchronize; the caller is one. -/
def establish (s : Base) (id : Nat) (pass : Pass) : Base :=
  let video := s.earliest (s.coordinatedContexts.filter fun id => (s.context id).video)
  let any := (s.earliest s.coordinatedContexts).getD id
  let first := if pass.videoStartImmediate then video.getD any else any
  let jitter := match video with
    | none => 0
    | some v =>
      if v = first then 0
      else
        let d := (s.context v).synchronizingAtPlaybackTime - (s.context first).synchronizingAtPlaybackTime
        pass.videoFrameDuration - (d - pass.videoFrameDuration * (d / pass.videoFrameDuration))
  { s with
    masterBaseNormalizedPlaybackTime := (s.context first).synchronizingAtPlaybackTime
    masterBaseSystemTime := pass.restartTime + jitter
    accumulatedPlaybackTimeJumps := 0
    jumpSeenAtPlaybackTime := 0
    masterTimeMappingEstablished := true
    masterTimeMappingVersion := s.masterTimeMappingVersion + 1 }

/-- How far a stream is ahead of the mapping it joins. -/
def offsetOf (s : Base) (playbackTime : BitVec 64) : BitVec 64 :=
  playbackTime - s.masterBaseNormalizedPlaybackTime - s.accumulatedPlaybackTimeJumps

/-- "Has someone completed the establishment of the mapping": the stream takes it over,
or, if it is too far from it, "will anticipate a stream jump". -/
def takeMapping (s : Base) (id : Nat) (playbackTime : BitVec 64) : Base :=
  let offset := s.offsetOf playbackTime
  let c := { s.context id with
    accumulatedPlaybackTimeJumps := 0
    baseSystemTimeAdjusted := true
    baseSystemTime := s.masterBaseSystemTime
    baseNormalizedPlaybackTime := s.masterBaseNormalizedPlaybackTime + s.accumulatedPlaybackTimeJumps
    timeMappingEstablished := true
    basedOnMasterMappingVersion := s.masterTimeMappingVersion
    streamOffset := 0 }
  if offset = 0 then s.write id c
  else if inrange offset (-maxSynchronizationWindow) maxSynchronizationWindow then
    s.write id { c with streamOffset := offset }
  else
    -- the offset is turned, as of a jump that has happened
    let jump := -offset
    { s.write id { c with
        baseNormalizedPlaybackTime := c.baseNormalizedPlaybackTime - jump
        accumulatedPlaybackTimeJumps := s.accumulatedPlaybackTimeJumps + jump } with
      accumulatedPlaybackTimeJumps := s.accumulatedPlaybackTimeJumps + jump
      masterBaseNormalizedPlaybackTime := s.masterBaseNormalizedPlaybackTime - jump
      jumpSeenAtPlaybackTime := c.baseNormalizedPlaybackTime }

/-- The stream leaves the loop with its mapping. -/
def synchronizeJoin (s : Base) (id : Nat) : Base :=
  let playbackTime := (s.context id).synchronizingAtPlaybackTime
  let s := s.takeMapping id playbackTime
  let s := s.lowerMinimum id
  let s := (s.translatePlaybackTimeToSystem (some id) playbackTime).1
  { s.write id { s.context id with inSynchronizeFn := false } with
    streamsInSynchronize := s.streamsInSynchronize - 1 }

/-- A pass of the loop, up to its wait or its end. `SynchronizingAtPlaybackTime` keeps
the `NormalizedPlaybackTime` of the call. -/
def synchronizePass (s : Base) (id : Nat) (pass : Pass) : Base :=
  if s.masterTimeMappingEstablished then s.synchronizeJoin id
  else if s.streamsInSynchronize == s.streamCount || pass.waitedOut then
    (s.establish id pass).synchronizeJoin id
  else s

/-! ## Resetting, jumps and adjustment -/

/-- `ResetTimeMapping`. -/
def resetTimeMapping (s : Base) : Option Nat → Base
  | none =>
    { s with
      masterTimeMappingEstablished := false
      accumulatedPlaybackTimeJumps := 0
      jumpSeenAtPlaybackTime := 0
      context := fun id =>
        if id ∈ s.coordinatedContexts then { s.context id with timeMappingEstablished := false }
        else s.context id }
  | some id => s.write id { s.context id with timeMappingEstablished := false }

/-- What `HandlePlaybackTimeDeltas` is given and reads: `PolicyPtsForwardJumpDetectionThreshold`
and `PolicySymmetricJumpDetection`. -/
structure Delta where
  knownJump : Bool
  expectedPlaybackTime : BitVec 64
  actualPlaybackTime : BitVec 64
  threshold : BitVec 8
  symmetric : Bool

/-- `PlaybackTimeForwardJumpThreshold`. -/
def Delta.forwardThreshold (d : Delta) : BitVec 64 := 1000000 * (1 <<< min d.threshold.toNat 43)

/-- `PlaybackTimeReverseJumpThreshold`. -/
def Delta.reverseThreshold (d : Delta) : BitVec 64 :=
  if d.symmetric then d.forwardThreshold else playbackTimeJumpError

/-- The jump is followed, or begun: "Is this part of a cascading change". -/
def cascadeJump (s : Base) (id : Nat) (d : Delta) : Base :=
  let c := s.context id
  let delta := d.actualPlaybackTime - d.expectedPlaybackTime
  if s.accumulatedPlaybackTimeJumps ≠ c.accumulatedPlaybackTimeJumps then
    let jumpError := s.accumulatedPlaybackTimeJumps - (c.accumulatedPlaybackTimeJumps - delta)
    if !inrange jumpError (-playbackTimeJumpError) d.forwardThreshold then
      -- partial catchup
      s.write id { c with
        accumulatedPlaybackTimeJumps := c.accumulatedPlaybackTimeJumps - delta
        baseNormalizedPlaybackTime := c.baseNormalizedPlaybackTime + delta
        baseSystemTimeAdjusted := true }
    else
      -- complete catchup
      s.write id { c with
        baseNormalizedPlaybackTime := c.baseNormalizedPlaybackTime + c.accumulatedPlaybackTimeJumps -
          s.accumulatedPlaybackTimeJumps
        accumulatedPlaybackTimeJumps := s.accumulatedPlaybackTimeJumps
        baseSystemTimeAdjusted := true }
  else
    { s.write id { c with
        baseNormalizedPlaybackTime := c.baseNormalizedPlaybackTime + delta
        accumulatedPlaybackTimeJumps := s.accumulatedPlaybackTimeJumps - delta
        baseSystemTimeAdjusted := true } with
      accumulatedPlaybackTimeJumps := s.accumulatedPlaybackTimeJumps - delta
      masterBaseNormalizedPlaybackTime := s.masterBaseNormalizedPlaybackTime + delta
      jumpSeenAtPlaybackTime := d.expectedPlaybackTime }

/-- "If there is an ongoing cascading change that we are not part of". -/
def checkFollowed (s : Base) (id : Nat) (d : Delta) : Base :=
  if s.accumulatedPlaybackTimeJumps ≠ (s.context id).accumulatedPlaybackTimeJumps ∧
      !inrange (d.actualPlaybackTime - s.jumpSeenAtPlaybackTime) (-d.forwardThreshold)
        otherStreamsMustFollowJumpBy then
    s.resetTimeMapping none
  else s

/-- "We may have missed some change to the master mapping". -/
def checkMatches (s : Base) (id : Nat) (d : Delta) : Base :=
  if (s.context id).basedOnMasterMappingVersion ≠ s.masterTimeMappingVersion ∧
      !inrange (d.actualPlaybackTime - s.masterBaseNormalizedPlaybackTime) (-d.forwardThreshold)
        d.forwardThreshold then
    s.resetTimeMapping none
  else s

/-- `HandlePlaybackTimeDeltas`. -/
def handlePlaybackTimeDeltas (s : Base) (id : Nat) (d : Delta) : Base :=
  if !s.masterTimeMappingEstablished then s
  else
    let s := if !inrange (d.actualPlaybackTime - d.expectedPlaybackTime) (-d.reverseThreshold)
          d.forwardThreshold || d.knownJump then
        s.cascadeJump id d
      else s
    (s.checkFollowed id d).checkMatches id d

/-- Whether `AdjustMappingBase` is for this caller. -/
def mayAdjust (s : Base) : Option Nat → Bool
  | none => true
  | some id => (s.context id).allowedToAdjustMappingBase

/-- `AdjustMappingBase`. -/
def adjustMappingBase (s : Base) (caller : Option Nat) (adjustment : BitVec 64) : Base :=
  if !s.mayAdjust caller then s
  else
    { s with
      masterBaseSystemTime :=
        if s.masterTimeMappingEstablished then s.masterBaseSystemTime + adjustment
        else s.masterBaseSystemTime
      context := fun id =>
        if id ∈ s.coordinatedContexts ∧ (s.context id).timeMappingEstablished then
          { s.context id with
            baseSystemTime := (s.context id).baseSystemTime + adjustment
            baseSystemTimeAdjusted := decide (caller ≠ some id) }
        else s.context id }

/-! ## Runs -/

/-- What happens to a coordinator. -/
inductive Event where
  | register (id : Nat) (video : Bool)
  | deRegister (id : Nat)
  | synchronizeEnter (id : Nat) (playbackTime now : BitVec 64)
  | synchronizeStart (id : Nat) (playbackTime : BitVec 64)
  | synchronizePass (id : Nat) (pass : Pass)
  | handleDeltas (id : Nat) (delta : Delta)
  | translate (id : Option Nat) (playbackTime : BitVec 64)
  | adjust (caller : Option Nat) (adjustment : BitVec 64)
  | reset (id : Option Nat)

/-- A stream's call is of a registered stream, which enters `SynchronizeStreams` from
outside of it, starts to wait after the delay, and passes through the loop while it waits. -/
def enabled (s : Base) : Event → Bool
  | .register _ _ | .deRegister _ => true
  | .synchronizeEnter id _ _ =>
    id ∈ s.coordinatedContexts && !(s.context id).inStartupDelay && !(s.context id).inSynchronizeFn
  | .synchronizeStart id _ => id ∈ s.coordinatedContexts && (s.context id).inStartupDelay
  | .synchronizePass id _ => id ∈ s.coordinatedContexts && (s.context id).inSynchronizeFn
  | .handleDeltas id _ => id ∈ s.coordinatedContexts
  | .translate id _ | .adjust id _ | .reset id => id.all (· ∈ s.coordinatedContexts)

def act (s : Base) : Event → Base
  | .register id video => s.registerStream id video
  | .deRegister id => s.deRegisterStream id
  | .synchronizeEnter id playbackTime now => s.synchronizeEnter id playbackTime now
  | .synchronizeStart id playbackTime => s.synchronizeStart id playbackTime
  | .synchronizePass id pass => s.synchronizePass id pass
  | .handleDeltas id delta => s.handlePlaybackTimeDeltas id delta
  | .translate id playbackTime => (s.translatePlaybackTimeToSystem id playbackTime).1
  | .adjust caller adjustment => s.adjustMappingBase caller adjustment
  | .reset id => s.resetTimeMapping id

/-- What cannot happen changes nothing. -/
def step (s : Base) (event : Event) : Base := if s.enabled event then s.act event else s

end Base

end Duckbox.OutputCoordinator
