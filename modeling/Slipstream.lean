import Slipstream.RunHistory
import Slipstream.CyclicSegment
import Slipstream.WeightedMean
import Slipstream.WordResidues
import Slipstream.BoundedFifo
import Slipstream.RingQueue
import Slipstream.SPSCQueue
import Slipstream.MPSCQueue
import Slipstream.TextStream
import Slipstream.DecimalNumeral
import Slipstream.CSVParser
import Slipstream.CSVFields
import Slipstream.CSVFile
import Slipstream.PriceScan
import Slipstream.CSVColumns
import Slipstream.CSVAccess
import Slipstream.PackedBytes
import Slipstream.GreedyFraming
import Slipstream.GCMDTypes
import Slipstream.GCMDCodec
import Slipstream.MessageReconstructor
import Slipstream.DecodingLocality
import Slipstream.NetworkMessageReceiver
import Slipstream.HeartbeatTimeout
import Slipstream.ReassemblyBuffer
import Slipstream.InboundDelivery
import Slipstream.DispatcherShutdown
import Slipstream.VWAPService
import Slipstream.VWAPRing
import Slipstream.VWAPWindow
import Slipstream.VWAPFreshness
import Slipstream.VWAPAverage
import Slipstream.VWAPEviction
import Slipstream.VWAPOverflow
import Slipstream.VWAPMean
import Slipstream.OETypes
import Slipstream.OECodec
import Slipstream.OrderMessageSender
import Slipstream.OrderMessageShutdown
import Slipstream.ExecutionEngine
import Slipstream.ExecutionLedger
import Slipstream.ExecutionReadiness
import Slipstream.ExecutionLimits
import Slipstream.OrderBookService
import Slipstream.MessageHandlers
import Slipstream.DispatchRuns
import Slipstream.ForeignTrades
import Slipstream.ForeignQuotes
import Slipstream.QuoteTradeRace
import Slipstream.PriceBand
import Slipstream.ExecutionEdge
import Slipstream.ExecutionBenchmark
import Slipstream.SessionControl
import Slipstream.ConsoleInput
import Slipstream.ReplayBodies
import Slipstream.ReplayClient
import Slipstream.FairRounds
import Slipstream.TradingPipeline
import Slipstream.ReceivedFrames
import Slipstream.PipelineProgress
import Slipstream.ProgramShutdown
import Slipstream.ProgramHistory
import Slipstream.ShutdownProgress
import Slipstream.ReplayDelivery
import Slipstream.OrderReadback
import Slipstream.OrderReconciliation
import Slipstream.VWAPQueries
import Slipstream.CanonicalFrames
import Slipstream.UniqueHandles
import Slipstream.ConnectionLifetime
import Slipstream.RingCalls
import Slipstream.CallBounds
import Slipstream.RingInbound
import Slipstream.RingSender
import Slipstream.RingPipeline
import Slipstream.RingDelays
import Slipstream.RingProgress
