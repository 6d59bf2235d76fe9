import Dokploy.AccessLog.Hourly
import Dokploy.AccessLog.Reader
import Dokploy.BackupRetention.Names
import Dokploy.BackupRetention.Pipeline
import Dokploy.BackupRetention.Runs
import Dokploy.BackupSlots.Limiter
import Dokploy.BuildPolicy.WatchPaths
import Dokploy.ComposeBuild.LogWriter
import Dokploy.ComposeImages.Names
import Dokploy.ComposeImages.OwnImages
import Dokploy.ComposeImages.Push
import Dokploy.ComposeImages.Services
import Dokploy.ComposeRename.Renaming
import Dokploy.ComposeRollback.OneRelease
import Dokploy.ComposeSpec.Values
import Dokploy.DeployGate.OrderFree
import Dokploy.DeployGate.Soundness
import Dokploy.DeployGate.Trust
import Dokploy.DeployHeartbeat.Gaps
import Dokploy.DeployHeartbeat.Marks
import Dokploy.DeployHooks.LogRelay
import Dokploy.DeployQueue.Census
import Dokploy.DeployQueue.Changes
import Dokploy.DeployQueue.Coalescing
import Dokploy.DeployQueue.Decomposition
import Dokploy.DeployQueue.Dropped
import Dokploy.DeployQueue.Holds
import Dokploy.DeployQueue.IdleWaiters
import Dokploy.DeployQueue.Locks
import Dokploy.DeployQueue.Notices
import Dokploy.DeployQueue.Operations
import Dokploy.DeployQueue.Payload
import Dokploy.DeployQueue.Pick
import Dokploy.DeployQueue.Prediction
import Dokploy.DeployQueue.StartOrder
import Dokploy.DeployQueue.Starts
import Dokploy.DeployQueue.State
import Dokploy.DeployQueue.Wakeup
import Dokploy.DoDomain.Agree
import Dokploy.EnvVariables.Prepare
import Dokploy.EnvVariables.References
import Dokploy.Foundation.Brackets
import Dokploy.Foundation.Bytes
import Dokploy.Foundation.Completion
import Dokploy.Foundation.FieldRewrites
import Dokploy.Foundation.FormUrl
import Dokploy.Foundation.Histories
import Dokploy.Foundation.Json
import Dokploy.Foundation.Keyed
import Dokploy.Foundation.KeyedQueue
import Dokploy.Foundation.Layouts
import Dokploy.Foundation.Lines
import Dokploy.Foundation.Losses
import Dokploy.Foundation.Machine
import Dokploy.Foundation.Number
import Dokploy.Foundation.Numerals
import Dokploy.Foundation.Objects
import Dokploy.Foundation.OrderedMap
import Dokploy.Foundation.Ownership
import Dokploy.Foundation.Paging
import Dokploy.Foundation.Program
import Dokploy.Foundation.Rewrites
import Dokploy.Foundation.Rounds
import Dokploy.Foundation.Shell
import Dokploy.Foundation.Splits
import Dokploy.Foundation.Stringify
import Dokploy.Foundation.Swaps
import Dokploy.Foundation.Sweep
import Dokploy.Foundation.Turns
import Dokploy.Foundation.Unicode
import Dokploy.GhaRelease.Acceptance
import Dokploy.GhaRelease.ActionsApi
import Dokploy.GhaRelease.GateBlock
import Dokploy.GhaRelease.Hint
import Dokploy.GhaRelease.LogCodec
import Dokploy.GhaRelease.LogManifest
import Dokploy.GhaRelease.ManifestSource
import Dokploy.GhaRelease.Namespace
import Dokploy.GhaRelease.Ordering
import Dokploy.GhaRelease.Release
import Dokploy.GhaRelease.Tables
import Dokploy.GhaRelease.Zip
import Dokploy.GhaRelease.ZipArchive
import Dokploy.GithubDeployments.Answering
import Dokploy.GithubDeployments.Burst
import Dokploy.GithubDeployments.Coverage
import Dokploy.GithubDeployments.Cursor
import Dokploy.GithubDeployments.Handling
import Dokploy.GithubDeployments.Poll
import Dokploy.GithubDeployments.PollCore
import Dokploy.GithubDeployments.PollWorld
import Dokploy.GithubDeployments.Polling
import Dokploy.GithubDeployments.Preparing
import Dokploy.GithubDeployments.Starting
import Dokploy.GithubDeployments.Walk
import Dokploy.GithubDeployments.Watch
import Dokploy.GithubRunPoller.Fairness
import Dokploy.GithubRunPoller.Passes
import Dokploy.GithubRunPoller.Poller
import Dokploy.GithubRunPoller.Progress
import Dokploy.GithubRunPoller.RowSteps
import Dokploy.GithubRunPoller.StepLines
import Dokploy.GithubRunPoller.StepLog
import Dokploy.LiveBuild.KeepsRow
import Dokploy.McpOauth.Approval
import Dokploy.McpOauth.Consent
import Dokploy.McpOauth.Purge
import Dokploy.McpOauth.PurgeRuns
import Dokploy.Permissions.AllowLists
import Dokploy.Permissions.Granted
import Dokploy.Permissions.Statements
import Dokploy.QueueJournal.Current
import Dokploy.RefreshLock.Serialized
import Dokploy.RegistryRetention.CurlOutput
import Dokploy.RegistryRetention.CurlReading
import Dokploy.RegistryRetention.CurlResponses
import Dokploy.RegistryRetention.CutOutput
import Dokploy.RegistryRetention.DeleteJob
import Dokploy.RegistryRetention.JobPlan
import Dokploy.RegistryRetention.JobStory
import Dokploy.RegistryRetention.Kept
import Dokploy.RegistryRetention.Prune
import Dokploy.RegistryRetention.Rotation
import Dokploy.ScheduleRun.CancelledRun
import Dokploy.ScheduleRun.EndsOnce
import Dokploy.ScheduleRun.PidCapture
import Dokploy.ServiceSecrets.Redaction
import Dokploy.Traefik.AgreementRuns
import Dokploy.Traefik.FailedReads
import Dokploy.Traefik.SharedFile
import Dokploy.UptimelyCache.Bounded
import Dokploy.UptimelyCache.Cache
import Dokploy.UptimelyCache.Fetching
import Dokploy.UptimelyCache.Freshness
import Dokploy.UptimelyCache.Keys
import Dokploy.UptimelyCache.Soundness
import Dokploy.VolumeBackup.RestartSafe
import Dokploy.Watchdog.Silence
import Dokploy.Watchdog.SlotSafety
import Dokploy.Watchdog.Sweep
import Dokploy.Watchdog.TwiceSilent
