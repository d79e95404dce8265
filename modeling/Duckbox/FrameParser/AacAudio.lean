import Duckbox.FrameParser.BitStream

/-!
# The headers of AAC audio

`ParseFrameHeader` of `FrameParser_AudioAac_c`, which the collator uses as well, for
frames of the ADTS format and of the two LOAS formats. It is told how many bytes are
available and leaves out the end of a LOAS header that begins behind them; one that
begins before is read to its end.

`Sync` is put together from several calls of `Get`, the later bits above the earlier
ones, as the source has it. Not modelled: the sampling frequency of an ADIF stream
and reports.
-/

namespace Duckbox.FrameParser.AacAudio

/-- `AacFormatType_t`. -/
inductive FormatType where
  | adtsFormat
  | adifFormat
  | mp4FileFormat
  | loasFormat
  | rawFormat
  | undefined
deriving DecidableEq

/-- `AacFrameParsingPurpose_t`. -/
inductive FrameParsingPurpose where
  | getSynchro
  | getLength
  | getFrameProperties
deriving DecidableEq

/-- `FrameParserStatus_t` where it is not `FrameParserNoError`. -/
inductive FrameParserError where
  | frameParserError
  | frameParserHeaderUnplayable
deriving DecidableEq

/-- `AacAudioParsedFrameHeader_t`. -/
structure ParsedFrameHeader where
  type : FormatType
  samplingFrequency : BitVec 32
  numberOfSamples : BitVec 32
  length : Nat
deriving DecidableEq

/-- `aac_sample_rates`. -/
def aacSampleRates : List (BitVec 32) :=
  [96000, 88200, 64000, 48000, 44100, 32000, 24000, 22050, 16000, 12000, 11025, 8000, 7350]

/-- `AAC_MAX_SAMPLE_RATE_IDX`. -/
abbrev aacMaxSampleRateIdx : BitVec 32 := 12

/-- `AAC_MAX_CHANNELS_IDX`. -/
abbrev aacMaxChannelsIdx : BitVec 32 := 7

/-- `AAC_AUDIO_PROFILE_LC`. -/
abbrev aacAudioProfileLc : BitVec 32 := 2

/-- `AAC_AUDIO_PROFILE_SBR`. -/
abbrev aacAudioProfileSbr : BitVec 32 := 5

/-- `AAC_LOAS_ASS_SYNC_LENGTH_HEADER_SIZE`. -/
abbrev aacLoasAssSyncLengthHeaderSize : Nat := 3

/-- `AAC_LOAS_ASS_MAX_FRAME_SIZE`. -/
abbrev aacLoasAssMaxFrameSize : Nat := 8192

/-- `AAC_LOAS_EP_ASS_HEADER_SIZE`. -/
abbrev aacLoasEpAssHeaderSize : Nat := 7

/-- `AAC_ADTS_MIN_FRAME_SIZE`. -/
abbrev aacAdtsMinFrameSize : Nat := 7

variable (m : Nat → BitVec 8)

/-! ## The multiplex of a LOAS frame -/

/-- A sampling frequency by its index, or in full. -/
def samplingFrequencyField (bits : BitStream) :
    Except FrameParserError (BitVec 32 × BitStream) :=
  let (samplingFrequencyIndex, bits) := bits.get m 4
  if samplingFrequencyIndex = 0xf then .ok (bits.get m 24)
  else if samplingFrequencyIndex ≤ aacMaxSampleRateIdx then
    .ok (aacSampleRates.getD samplingFrequencyIndex.toNat 0, bits)
  else .error .frameParserError

/-- `AudioSpecificConfig`: the sampling frequency, and whether the extension that
doubles it is not only implied. -/
def audioSpecificConfig (bits : BitStream) : Except FrameParserError (BitVec 32 × Bool) :=
  let (audioObjectType, bits) := bits.get m 5
  if audioObjectType ≠ aacAudioProfileLc ∧ audioObjectType ≠ aacAudioProfileSbr then
    .error .frameParserError
  else
    (samplingFrequencyField m bits).bind fun (samplingFrequency, bits) =>
      let (channelConfiguration, bits) := bits.get m 4
      if aacMaxChannelsIdx < channelConfiguration then .error .frameParserError
      else if audioObjectType = aacAudioProfileSbr then
        (samplingFrequencyField m bits).bind fun (samplingFrequency, bits) =>
          let (audioObjectType, _) := bits.get m 5
          if audioObjectType ≠ aacAudioProfileLc then .error .frameParserError
          else .ok (samplingFrequency, true)
      else .ok (samplingFrequency, false)

/-- `ParseAudioMuxElementConfig`: the sampling frequency and the sample count. -/
def parseAudioMuxElementConfig (bits : BitStream) (availableBytes : Int)
    (action : FrameParsingPurpose) : Except FrameParserError (BitVec 32 × BitVec 32) :=
  let (useSameStreamMux, bits) :=
    if 0 < availableBytes then
      let (bit, bits) := bits.get m 1
      (bit ≠ 0, bits)
    else (true, bits)
  if !useSameStreamMux then
    let (audioMuxVersion, bits) := bits.get m 1
    if audioMuxVersion = 0 then
      -- allStreamSameTimeFraming, numSubFrames, numProgram, numLayer
      let bits := bits.flushUnseen m (1 + 6 + 4 + 3)
      (audioSpecificConfig m bits).map fun (samplingFrequency, explicitSbrExtension) =>
        -- an extension is there, by what is said or because nothing is said against it
        (if explicitSbrExtension then samplingFrequency else samplingFrequency * 2, 1024 * 2)
    else .error .frameParserError
  else if action = .getSynchro then .error .frameParserError
  else .ok (0, 0)

/-! ## The header of a frame -/

/-- A LOAS frame behind its eleven bits of sync word. -/
def parseLoasAss (bits : BitStream) (availableBytes : Int) (action : FrameParsingPurpose) :
    Except FrameParserError ParsedFrameHeader :=
  let (size, bits) := bits.get m 13
  let frameSize := size.toNat + aacLoasAssSyncLengthHeaderSize
  if aacLoasAssMaxFrameSize < frameSize then .error .frameParserError
  else
    (parseAudioMuxElementConfig m bits (availableBytes - aacLoasAssSyncLengthHeaderSize) action).map
      fun (samplingFrequency, sampleCount) =>
        ⟨.loasFormat, samplingFrequency, sampleCount, frameSize⟩

/-- An ADTS frame behind its twelve bits of sync word. -/
def parseAdts (bits : BitStream) (enableHeaderUnplayableErrors : Bool) :
    Except FrameParserError ParsedFrameHeader :=
  -- ID
  let bits := bits.flushUnseen m 1
  let (layer, bits) := bits.get m 2
  if layer ≠ 0 then .error .frameParserError
  else
    -- protection_absent
    let bits := bits.flushUnseen m 1
    let (profileObjectType, bits) := bits.get m 2
    if profileObjectType + 1 ≠ aacAudioProfileLc ∧ enableHeaderUnplayableErrors then
      .error .frameParserHeaderUnplayable
    else
      let (samplingFrequencyIndex, bits) := bits.get m 4
      if aacMaxSampleRateIdx < samplingFrequencyIndex then .error .frameParserError
      else
        let samplingFrequency := aacSampleRates.getD samplingFrequencyIndex.toNat 0 * 2
        -- private_bit
        let bits := bits.flushUnseen m 1
        let (channelConfiguration, bits) := bits.get m 3
        if aacMaxChannelsIdx < channelConfiguration then .error .frameParserError
        else
          -- original/copy, home, copyright_identification_bit and _start
          let bits := bits.flushUnseen m (1 + 1 + 1 + 1)
          let (frameSize, bits) := bits.get m 13
          if frameSize.toNat < aacAdtsMinFrameSize then .error .frameParserError
          else
            -- adts_buffer_fullness
            let bits := bits.flushUnseen m 11
            let (noRawDataBlocksInFrame, _) := bits.get m 2
            .ok
              ⟨.adtsFormat, samplingFrequency, (noRawDataBlocksInFrame + 1) * 1024 * 2,
                frameSize.toNat⟩

/-- A LOAS frame with error protection behind its sixteen bits of sync word. -/
def parseLoasEpAss (bits : BitStream) (availableBytes : Int) (action : FrameParsingPurpose) :
    Except FrameParserError ParsedFrameHeader :=
  -- futureUse
  let bits := bits.flushUnseen m 4
  let (size, bits) := bits.get m 13
  let frameSize := size.toNat + aacLoasEpAssHeaderSize
  -- frameCounter, headerParity
  let bits := bits.flushUnseen m (5 + 18)
  let availableBytes := availableBytes - aacLoasEpAssHeaderSize
  let (epUsePreviousMuxConfig, bits) := bits.get m 1
  -- epUsePreviousMuxConfigParity
  let bits := bits.flushUnseen m 2
  let (availableBytes, bits) :=
    if epUsePreviousMuxConfig = 0 then
      let (epSpecificConfigLength, bits) := bits.get m 10
      let (epSpecificConfigLengthParity, bits) := bits.get m 11
      let availableBytes := availableBytes - 3
      if 0 < availableBytes then
        (availableBytes - (epSpecificConfigLength.toNat + epSpecificConfigLengthParity.toNat),
          (bits.flushUnseen m (epSpecificConfigLength.toNat * 8)).flushUnseen m
            (epSpecificConfigLengthParity.toNat * 8))
      else (availableBytes, bits)
    else
      -- ByteAlign()
      (availableBytes - 1, bits.flushUnseen m 5)
  (parseAudioMuxElementConfig m bits availableBytes action).map
    fun (samplingFrequency, sampleCount) =>
      ⟨.loasFormat, samplingFrequency, sampleCount, frameSize⟩

/-- `ParseFrameHeader` of what begins at a place in the memory. -/
def parseFrameHeader (pointer : Nat) (availableBytes : Int) (action : FrameParsingPurpose)
    (enableHeaderUnplayableErrors : Bool) : Except FrameParserError ParsedFrameHeader :=
  let (sync, bits) := (BitStream.setPointer m pointer).get m 11
  -- AAC_AUDIO_LOAS_ASS_SYNC_WORD
  if sync = 0x2b7 then parseLoasAss m bits availableBytes action
  else
    let (more, bits) := bits.get m 1
    let sync := sync ||| more <<< 11
    -- AAC_AUDIO_ADTS_SYNC_WORD
    if sync = 0xfff then parseAdts m bits enableHeaderUnplayableErrors
    else
      let (more, bits) := bits.get m 4
      let sync := sync ||| more <<< 12
      -- AAC_AUDIO_LOAS_EPASS_SYNC_WORD
      if sync = 0x4de1 then parseLoasEpAss m bits availableBytes action
      else
        let (more, _) := bits.get m 16
        let sync := sync ||| more <<< 16
        -- AAC_AUDIO_ADIF_SYNC_WORD
        if sync = 0x41444946 then .error .frameParserHeaderUnplayable
        else .error .frameParserError

end Duckbox.FrameParser.AacAudio
