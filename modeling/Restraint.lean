import Restraint.Lib.Transition
import Restraint.Lib.MainLoop
import Restraint.Message
import Restraint.MessageProofs
import Restraint.Process
import Restraint.ProcessProofs
import Restraint.ProcessOutput
import Restraint.Lib.Binary64
import Restraint.Watchdog
import Restraint.WatchdogProofs
import Restraint.Lib.Tiling
import Restraint.Lib.SparseFile
import Restraint.Logging
import Restraint.LoggingProofs
import Restraint.LogRestart
import Restraint.Lib.CString
import Restraint.Lib.Decimal
import Restraint.Lib.Regex
import Restraint.Client
import Restraint.LogTransfer
import Restraint.LogTransferProofs
import Restraint.Harness
import Restraint.TaskHandler
import Restraint.Server
import Restraint.TaskMachine
import Restraint.TaskRefinement
import Restraint.ActivationProofs
import Restraint.TaskAbort
import Restraint.RecipeAbort
import Restraint.Lib.Inevitable
import Restraint.Dependency
import Restraint.DependencyProofs
import Restraint.RecipeFetch
import Restraint.TaskSteps
import Restraint.TaskStrides
import Restraint.RecipeProgress
import Restraint.Requests
import Restraint.Lib.History
import Restraint.Env
import Restraint.TaskDeeds
import Restraint.Restart
import Restraint.FinalStatus
import Restraint.WatchdogVerdict
import Restraint.TimeBudget
import Restraint.RebootCount
import Restraint.Completion
import Restraint.Lib.Trace
import Restraint.Lib.Descent
import Restraint.DependencyVisits
import Restraint.Countdown
import Restraint.Lib.Greatest
import Restraint.ResultAggregation
import Restraint.ClientLoop
import Restraint.ClientLoopProofs
import Restraint.JobEnd
import Restraint.LabWatchdog
import Restraint.Reconnect
import Restraint.Sync
import Restraint.SyncServer
import Restraint.SyncClient
import Restraint.Overrun
import Restraint.AutomaticPass
import Restraint.Lib.Leads
import Restraint.PackagePhase
import Restraint.SoftDependencies
import Restraint.PluginEnv
import Restraint.EnvOverride
import Restraint.Lib.Path
import Restraint.Fetch
import Restraint.FetchUri
import Restraint.FetchOnce
import Restraint.FetchUnpack
import Restraint.Lib.Hex
import Restraint.FetchGit
import Restraint.KeepChanges
import Restraint.SubDirectory
import Restraint.Lib.Retry
import Restraint.FetchAttempts
import Restraint.FetchRetries
import Restraint.PktLine
import Restraint.SideBand
import Restraint.Lib.Scanf
import Restraint.TimeString
import Restraint.Lib.Lines
import Restraint.Testinfo
import Restraint.TestinfoProofs
import Restraint.WatchdogAdjust
import Restraint.Lib.Xml
import Restraint.Lib.HashTable
import Restraint.JobTemplate
import Restraint.JobTemplateProofs
import Restraint.EffectiveRoles
import Restraint.RecipeIdentity
import Restraint.RecipeParse
import Restraint.RecipeGrammar
import Restraint.Lib.PathPattern
import Restraint.Upload
import Restraint.LogRouting
import Restraint.TransactionIds
import Restraint.UploadReplace
import Restraint.UploadEnd
import Restraint.StatusRequest
import Restraint.RstrntPackage
import Restraint.RangedChunk
import Restraint.ChunkVector
import Restraint.MultihostProofs
import Restraint.RepliesProofs
import Restraint.Commands
import Restraint.Lib.KeyFile
import Restraint.Config
import Restraint.GitFetch
import Restraint.Lib.Channel
import Restraint.ReportTransfer
import Restraint.Lib.Reaches
import Restraint.MultihostProgress
import Restraint.RoleRefresh
import Restraint.Lib.Ranges
import Restraint.DmesgCheck
