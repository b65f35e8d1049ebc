import CxlScheduler.Vtime
import CxlScheduler.SchedExt
import CxlScheduler.MinimalModel
import CxlScheduler.MinimalVtimeBounds
import CxlScheduler.MinimalRunning
import CxlScheduler.MinimalQueue
import CxlScheduler.BpfMap
import CxlScheduler.PmuDamon
import CxlScheduler.PmuDamonInvariant
import CxlScheduler.PmuLocality
import CxlScheduler.PmuPriority
import CxlScheduler.PmuOps
import CxlScheduler.Monitoring
import CxlScheduler.MonitoringCounters
import CxlScheduler.MemoryTestArgs
import CxlScheduler.MemoryTestLoops
import CxlScheduler.FifoSchedulers
import CxlScheduler.PmuMetrics
