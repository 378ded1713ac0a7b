import Player2.Tiling
import Player2.Run
import Player2.AllocatorSimple
import Player2.AllocatorSpec
import Player2.AllocatorFreeList
import Player2.AllocatorLedger
import Player2.AllocatorThreads
import Player2.BufferPool
import Player2.BufferCalls
import Player2.BufferReferences
import Player2.BufferMemory
import Player2.BufferMemoryRuns
import Player2.BufferUsage
import Player2.StartCode
import Player2.Pes
import Player2.StartCodeSearch
import Player2.PesTimestamps
import Player2.EmulationPrevention
import Player2.AntiEmulation
import Player2.DemultiplexorStreams
import Player2.Dvb
import Player2.DemultiplexorDemux
import Player2.DemultiplexorGlitch
import Player2.Collator2Base
import Player2.Collator2Forward
import Player2.Collator2Flush
import Player2.Collator2WriteSpace
import Player2.Program
import Player2.Collator2Table
import Player2.Collator2Input
import Player2.Collator2Layout
import Player2.Collator2Partitions
import Player2.ReverseStack
import Player2.AudioElementary
import Player2.AudioMpeg
import Player2.AudioProgress
import Player2.AudioErrors
import Player2.AudioCuts
import Player2.AudioPes
import Player2.AudioPesSync
import Player2.AudioPesCuts
import Player2.NativeTime
import Player2.TimeQueries
import Player2.KeyOrder
import Player2.VideoReorder
import Player2.H264Slice
import Player2.H264PicOrder
import Player2.H264DisplayKey
import Player2.H264DeferredList
import Player2.H264Marking
import Player2.Alternating
import Player2.H264FieldLists
import Player2.ReverseDecode
import Player2.Rational
import Player2.Keyed
import Player2.OutputCoordinator
import Player2.CoordinatorRoles
import Player2.CoordinatorJumps
import Player2.CoordinatorWaiting
import Player2.CoordinatorTranslation
import Player2.Rounding
import Player2.RationalValue
import Player2.CoordinatorAffine
import Player2.RestartTime
import Player2.SynchronizedStart
import Player2.FrameDrop
import Player2.PictureTiming
import Player2.H264Counters
import Player2.CodecMarkers
import Player2.CodecReferences
import Player2.CodecChain
import Player2.CodecReports
import Player2.Threaded
import Player2.EventList
import Player2.Slots
import Player2.InSequence
import Player2.DecodeToManifest
import Player2.ReorderPlaces
import Player2.ReorderDistinct
import Player2.ReorderOrder
import Player2.ReorderDue
import Player2.ReorderAdvance
import Player2.ReorderSequence
import Player2.Circular
import Player2.Manifestor
import Player2.ManifestorEvents
import Player2.ManifestorBuffers
import Player2.Alignment
import Player2.BufferStructure
import Player2.DecodeBufferRequest
import Player2.DemultiplexorTable
import Player2.PlayerRequests
import Player2.PresentationInterval
import Player2.QueueRecords
import Player2.ExpGolomb
import Player2.ScalingLists
import Player2.RationalRestrict
import Player2.ManifestationTime
import Player2.RationalBounds
import Player2.DisplayWindows
import Player2.DisplayPlacement
import Player2.Interning
import Player2.H264ReferenceSlots
import Player2.H264RefPicLists
import Player2.Carry
import Player2.FrameTiming
import Player2.FrameCounts
import Player2.PanScanCounts
import Player2.OutputRateSmoothing
import Player2.SignMagnitude
import Player2.RationalOrder
import Player2.RationalArithmetic
import Player2.RationalPrecision
import Player2.LinearFit
import Player2.LongLongLong
import Player2.LeastSquares
import Player2.BitStreamCalls
import Player2.AntiEmulationBounds
import Player2.AudioTimes
import Player2.RationalChecked
import Player2.FrameRateDeduction
import Player2.BufferDataTypes
import Player2.PoolMetaData
import Player2.PoolMetaDataRuns
import Player2.SlidingWindow
import Player2.RingGeneric
import Player2.RingThreads
import Player2.StackGeneric
import Player2.DecodeTimes
import Player2.BufferOwners
