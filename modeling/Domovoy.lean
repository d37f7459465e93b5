import Domovoy.WordAlign
import Domovoy.LinkedChain
import Domovoy.Transition
import Domovoy.Pool
import Domovoy.PoolList
import Domovoy.PoolSafety
import Domovoy.AllocHooks
import Domovoy.TrackerExact
import Domovoy.Registry
import Domovoy.TrackerSteps
import Domovoy.TrackerConcurrent
import Domovoy.Sessions
import Domovoy.IoMonitor
import Domovoy.IoSteps
import Domovoy.CrashHandler
import Domovoy.CpuMonitor
import Domovoy.CpuHotspots
import Domovoy.Core
import Domovoy.Shutdown
import Domovoy.BootstrapBuf
import Domovoy.HookInit
import Domovoy.BootstrapRelease
import Domovoy.Backtrace
import Domovoy.CrashFilter
import Domovoy.CrashLocks
import Domovoy.CrashRuns
import Domovoy.HostCalls
import Domovoy.MonitorSessions
import Domovoy.OptIn
import Domovoy.ReportFiles
import Domovoy.FirstFit
import Domovoy.HookOnce
import Domovoy.InitRetry
import Domovoy.IoOnce
import Domovoy.KeyRuns
import Domovoy.LeakReport
import Domovoy.LeakSummary
import Domovoy.LoggedReads
import Domovoy.PoolFirstFit
import Domovoy.PoolLimits
import Domovoy.PoolTeardown
import Domovoy.ReporterLifetime
import Domovoy.ResolveType
import Domovoy.BootstrapRegions
import Domovoy.InitCapacity
import Domovoy.NestedCalls
import Domovoy.Reachability
import Domovoy.Extraction
import Domovoy.StatLine
import Domovoy.LockSteps
import Domovoy.DeadlockFree
import Domovoy.PoolFootprint
import Domovoy.SessionsReturn
import Domovoy.CpuPlatforms
import Domovoy.LeakDelivery
import Domovoy.FreshStart
import Domovoy.ResolveTypeWindows
import Domovoy.WinHandles
import Domovoy.FairRuns
import Domovoy.HeapEnumeration
import Domovoy.HooksReturn
import Domovoy.WindowsCrashes
