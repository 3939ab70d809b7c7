import PgSleuth.ForMathlib.Batching
import PgSleuth.ForMathlib.Binary64
import PgSleuth.ForMathlib.BitFields
import PgSleuth.ForMathlib.BoundedMap
import PgSleuth.ForMathlib.BoundedQueue
import PgSleuth.ForMathlib.Climb
import PgSleuth.ForMathlib.Components
import PgSleuth.ForMathlib.FileTree
import PgSleuth.ForMathlib.FirstOccurrences
import PgSleuth.ForMathlib.GroupedCount
import PgSleuth.ForMathlib.JsonText
import PgSleuth.ForMathlib.LeftJoin
import PgSleuth.ForMathlib.LongBlocks
import PgSleuth.ForMathlib.NulTerminated
import PgSleuth.ForMathlib.Numeral
import PgSleuth.ForMathlib.OrderedMap
import PgSleuth.ForMathlib.ResidueWindow
import PgSleuth.ForMathlib.RestartingCounter
import PgSleuth.ForMathlib.UpperMedian
import PgSleuth.ForMathlib.Utf8Lossy
import PgSleuth.ForMathlib.Words
import PgSleuth.Core.AlarmCount
import PgSleuth.Core.BreachRuns
import PgSleuth.Core.Finding
import PgSleuth.Core.FindingReread
import PgSleuth.Core.FindingText
import PgSleuth.Core.SkippedTicks
import PgSleuth.Core.Window
import PgSleuth.Ebpf.BlockLatency
import PgSleuth.Ebpf.Correlation
import PgSleuth.Ebpf.RequestFates
import PgSleuth.Ebpf.RwbsClass
import PgSleuth.Loader.Config
import PgSleuth.Loader.DistinctSpills
import PgSleuth.Loader.FsyncAlarm
import PgSleuth.Loader.FsyncEvidence
import PgSleuth.Loader.FsyncRule
import PgSleuth.Loader.Main
import PgSleuth.Loader.NameFilter
import PgSleuth.Loader.SpillCoverage
import PgSleuth.Loader.TempFile
import PgSleuth.Loader.WalDevice
import PgSleuth.Postgres.CheckpointerDoubles
import PgSleuth.Postgres.ClassifierAlgebra
import PgSleuth.Postgres.StatActivity
import PgSleuth.Postgres.StatCheckpointer
import PgSleuth.Postgres.StatementsView
import PgSleuth.PgExt.WalDevice
import PgSleuth.Cli.CgroupThrottle
import PgSleuth.Cli.CheckpointRows
import PgSleuth.Cli.CheckpointStorm
import PgSleuth.Cli.CollectPgStmt
import PgSleuth.Cli.ConnectionStorm
import PgSleuth.Cli.CpuStat
import PgSleuth.Cli.CpuStatText
import PgSleuth.Cli.DominantStreak
import PgSleuth.Cli.FailedPolls
import PgSleuth.Cli.Findings
import PgSleuth.Cli.SessionPolls
import PgSleuth.Cli.SpillMeasure
import PgSleuth.Cli.StmtConservation
import PgSleuth.Cli.StmtResets
import PgSleuth.Cli.StmtServer
import PgSleuth.Cli.StmtWire
import PgSleuth.Cli.StormEvidence
import PgSleuth.Cli.TempSpill
import PgSleuth.Cli.TempSpillLatch
import PgSleuth.Cli.ThrottleCounters
import PgSleuth.Otel.Lossless
import PgSleuth.Otel.Metrics
import PgSleuth.Otel.Portable
import PgSleuth.Otel.Representations
import PgSleuth.Agent.AlarmCount
import PgSleuth.Agent.Causes
import PgSleuth.Agent.Delivery
import PgSleuth.Agent.Drained
import PgSleuth.Agent.FsyncPipeline
import PgSleuth.Agent.Host
import PgSleuth.Agent.Isolation
import PgSleuth.Agent.Panel
import PgSleuth.Agent.Portable
import PgSleuth.Agent.Restart
import PgSleuth.Agent.Scope
import PgSleuth.Agent.SpillSchedule
