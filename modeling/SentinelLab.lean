import SentinelLab.RingBufferSize
import SentinelLab.BlockListMirror
import SentinelLab.XdpFilter
import SentinelLab.Worker
import SentinelLab.SlabWire
import SentinelLab.Feedback
import SentinelLab.Krum
import SentinelLab.MatrixInspector
import SentinelLab.DaemonThreads
import SentinelLab.DaemonLedger
import SentinelLab.DaemonShutdown
import SentinelLab.IngestCodec
import SentinelLab.HandshakeCodec
import SentinelLab.Library.Framing
import SentinelLab.ScadaSession
import SentinelLab.SessionStream
import SentinelLab.LiveSafety
import SentinelLab.InferenceEngine
import SentinelLab.IngestBounds
import SentinelLab.TwoProducers
import SentinelLab.Library.Csv
import SentinelLab.Library.DecimalText
import SentinelLab.OfflineEvaluation
import SentinelLab.KrumInputs
import SentinelLab.DriftProfiler
import SentinelLab.FdiaEngine
import SentinelLab.Library.Modbus
import SentinelLab.ModbusTap
import SentinelLab.PatchRegressionEngine
import SentinelLab.FilterLoading
import SentinelLab.Library.Sorting
import SentinelLab.QuantProfiler
import SentinelLab.EvtVerdict
import SentinelLab.Library.Json
import SentinelLab.Library.Lines
import SentinelLab.ProfileLoading
import SentinelLab.Library.Descriptors
import SentinelLab.PmuCounters
import SentinelLab.AdversarialEngine
import SentinelLab.FeatureMutator
import SentinelLab.LatencyPercentiles
import SentinelLab.KrumSymmetry
import SentinelLab.DriftHistory
import SentinelLab.Library.Ranking
import SentinelLab.RankInversion
import SentinelLab.Library.Counter
import SentinelLab.SessionNumbers
import SentinelLab.SessionScript
import SentinelLab.Library.RoundedArithmetic
import SentinelLab.PqcProfiler
import SentinelLab.PqcHarness
import SentinelLab.EvtSafety
import SentinelLab.HilCoupler
import SentinelLab.EvtQuantiles
import SentinelLab.BlastPacing
import SentinelLab.Library.Cosine
import SentinelLab.QuantSimilarity
import SentinelLab.AttackConsole
import SentinelLab.SideChannelCorrelator
import SentinelLab.DaemonTelemetry
import SentinelLab.Library.DecimalLiteral
import SentinelLab.Library.JsonReader
import SentinelLab.MitigationLoop
import SentinelLab.RestApi
import SentinelLab.DriftHarness
import SentinelLab.EvaluationClient
import SentinelLab.FederatedHarness
import SentinelLab.DaemonProgress
import SentinelLab.DifferentialFuzzer
import SentinelLab.Library.Gradient
import SentinelLab.ReachabilityHarness
import SentinelLab.SideChannelHarness
import SentinelLab.Numpy
