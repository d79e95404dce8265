import Duckbox.BufferPool.BufferIndices
import Duckbox.BufferPool.MemoryPartitions
import Duckbox.BufferPool.MetaData
import Duckbox.Codec.MacroblockStructures
import Duckbox.Codec.MmeCommands
import Duckbox.Codec.PreprocessorChain
import Duckbox.Codec.PromotedParameters
import Duckbox.Codec.ReferenceDescriptors
import Duckbox.Collator.Audio.PesHeaderSearch
import Duckbox.Collator.BufferWrites
import Duckbox.Collator.PesFrameReads
import Duckbox.Collator.WordScan
import Duckbox.Collator2.FrameFlush
import Duckbox.Collator2.HeldBuffer
import Duckbox.Collator2.ReverseGroups
import Duckbox.Collator2.SpanningCodes
import Duckbox.Collator2.WriteSpace
import Duckbox.Demultiplexor.TsExact
import Duckbox.FrameParser.AacAudioSync
import Duckbox.FrameParser.BitStreamReader
import Duckbox.FrameParser.Mpeg2References
import Duckbox.FrameParser.PresentationTimes
import Duckbox.FrameParser.VideoMirror
import Duckbox.Fup.BlockReads
import Duckbox.Fup.Sign
import Duckbox.H264.ContainerParameters
import Duckbox.H264.DeferredLimit
import Duckbox.H264.MaxLongTermIndex
import Duckbox.H264.PicOrderCntExtended
import Duckbox.H264.PicOrderCntFrameNum
import Duckbox.H264.ReferenceCounters
import Duckbox.H264.ReferenceListsOrder
import Duckbox.H264.ReferenceRelease
import Duckbox.H264.ScalingLists
import Duckbox.H264.SliceHeaderSets
import Duckbox.H264.StreamParametersCheck
import Duckbox.H264.StreamParametersHeld
import Duckbox.H264.SupplementalBounds
import Duckbox.Infrastructure.AllocatorExtension
import Duckbox.Infrastructure.Rings
import Duckbox.Libeplayer3.OutputSubtitle
import Duckbox.Libeplayer3.SrtEntries
import Duckbox.Libeplayer3.SubtitleText
import Duckbox.Mup.ImageRoundTrip
import Duckbox.Output.PcmRuns
import Duckbox.OutputCoordinator.ClockRecovery
import Duckbox.OutputCoordinator.PlaybackSpeed
import Duckbox.OutputCoordinator.SynchronizedStart
import Duckbox.OutputCoordinator.SystemTimeOrder
import Duckbox.OutputCoordinator.TranslationAccuracy
import Duckbox.OutputTimer.FieldCounts
import Duckbox.Pes.AacWriter
import Duckbox.Pes.AvccSamples
import Duckbox.Pes.HeaderRoundTrip
import Duckbox.Pes.SplittingWriters
import Duckbox.Player.Events
import Duckbox.Player.InSequence
import Duckbox.Player.MarkerOrder
