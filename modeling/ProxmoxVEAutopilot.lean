import ProxmoxVEAutopilot.Foundation.Json
import ProxmoxVEAutopilot.Foundation.Lists
import ProxmoxVEAutopilot.Foundation.Text
import ProxmoxVEAutopilot.Foundation.Runs
import ProxmoxVEAutopilot.Foundation.Walk
import ProxmoxVEAutopilot.Foundation.Preorder
import ProxmoxVEAutopilot.Foundation.Table
import ProxmoxVEAutopilot.Foundation.Substitution
import ProxmoxVEAutopilot.Foundation.Takeover
import ProxmoxVEAutopilot.Foundation.Interleaving
import ProxmoxVEAutopilot.Foundation.Networks
import ProxmoxVEAutopilot.Foundation.Programs
import ProxmoxVEAutopilot.Foundation.Transactions
import ProxmoxVEAutopilot.TsEngine.Plan
import ProxmoxVEAutopilot.TsEngine.Condition
import ProxmoxVEAutopilot.TsEngine.Tree
import ProxmoxVEAutopilot.TsEngine.Flattening
import ProxmoxVEAutopilot.TsEngine.Create
import ProxmoxVEAutopilot.TsEngine.TreeSemantics
import ProxmoxVEAutopilot.TsEngine.Engine
import ProxmoxVEAutopilot.TsEngine.Moves
import ProxmoxVEAutopilot.TsEngine.RetryBudget
import ProxmoxVEAutopilot.TsEngine.Progress
import ProxmoxVEAutopilot.TsEngine.Endpoints
import ProxmoxVEAutopilot.TsEngine.FinishedSteps
import ProxmoxVEAutopilot.TsEngine.Finality
import ProxmoxVEAutopilot.TsEngine.Reboot
import ProxmoxVEAutopilot.TsEngine.Aggregate
import ProxmoxVEAutopilot.TsEngine.ConcurrentClaim
import ProxmoxVEAutopilot.TsEngine.Authoring
import ProxmoxVEAutopilot.TsEngine.Publication
import ProxmoxVEAutopilot.TsEngine.BuilderSave
import ProxmoxVEAutopilot.TsEngine.Content
import ProxmoxVEAutopilot.TsEngine.ContentPinning
import ProxmoxVEAutopilot.TsEngine.Turns
import ProxmoxVEAutopilot.TsEngine.Schedules
import ProxmoxVEAutopilot.TsEngine.Interpreter
import ProxmoxVEAutopilot.Agents.DomainCheck
import ProxmoxVEAutopilot.Agents.Client
import ProxmoxVEAutopilot.Agents.Exchange
import ProxmoxVEAutopilot.Agents.Stranded
import ProxmoxVEAutopilot.Agents.RebootWindow
import ProxmoxVEAutopilot.Jobs.Queue
import ProxmoxVEAutopilot.Jobs.Caps
import ProxmoxVEAutopilot.Jobs.LockOrder
import ProxmoxVEAutopilot.Jobs.Args
import ProxmoxVEAutopilot.Telemetry.Devices
import ProxmoxVEAutopilot.Telemetry.Revocation
import ProxmoxVEAutopilot.Telemetry.Approval
import ProxmoxVEAutopilot.Telemetry.Bootstrap
import ProxmoxVEAutopilot.Lifecycle.Observe
import ProxmoxVEAutopilot.Lifecycle.Log
import ProxmoxVEAutopilot.Lifecycle.Concurrent
import ProxmoxVEAutopilot.Monitor.SearchOus
import ProxmoxVEAutopilot.Monitor.Sweep
import ProxmoxVEAutopilot.Monitor.Timeline
import ProxmoxVEAutopilot.Monitor.FailedProbes
import ProxmoxVEAutopilot.Monitor.ConfigChanges
import ProxmoxVEAutopilot.Monitor.Deletions
import ProxmoxVEAutopilot.Monitor.Balance
import ProxmoxVEAutopilot.Monitor.Replay
import ProxmoxVEAutopilot.WinPe.Runs
import ProxmoxVEAutopilot.WinPe.Terminal
import ProxmoxVEAutopilot.WinPe.Registration
import ProxmoxVEAutopilot.WinPe.Numbering
import ProxmoxVEAutopilot.WinPe.OsdOrder
import ProxmoxVEAutopilot.OsDeploy.Runs
import ProxmoxVEAutopilot.OsDeploy.Create
import ProxmoxVEAutopilot.OsDeploy.FinalOutcome
import ProxmoxVEAutopilot.OsDeploy.Bundles
import ProxmoxVEAutopilot.OsDeploy.BundleCreation
import ProxmoxVEAutopilot.OsDeploy.BundleRollback
import ProxmoxVEAutopilot.ManagedLabs.FailedPlans
import ProxmoxVEAutopilot.ManagedLabs.HonestFixes
import ProxmoxVEAutopilot.OsDeploy.Cache
import ProxmoxVEAutopilot.OsDeploy.CacheRefresh
import ProxmoxVEAutopilot.CloudOsd.Runs
import ProxmoxVEAutopilot.CloudOsd.Calls
import ProxmoxVEAutopilot.CloudOsd.Create
import ProxmoxVEAutopilot.CloudOsd.DomainJoinExecutor
import ProxmoxVEAutopilot.CloudOsd.VerifiedJoins
import ProxmoxVEAutopilot.CloudOsd.DomainAgreement
import ProxmoxVEAutopilot.CloudOsd.FinalOutcome
import ProxmoxVEAutopilot.CloudOsd.CompletionGate
import ProxmoxVEAutopilot.CloudOsd.HashUpload
import ProxmoxVEAutopilot.CloudOsd.UploadRetry
import ProxmoxVEAutopilot.ManagedLabs.Labs
import ProxmoxVEAutopilot.ManagedLabs.Reconcile
import ProxmoxVEAutopilot.ManagedLabs.Effects
import ProxmoxVEAutopilot.ManagedLabs.CidrReservations
import ProxmoxVEAutopilot.ManagedLabs.SeparateNetworks
import ProxmoxVEAutopilot.ManagedLabs.Escalation
import ProxmoxVEAutopilot.Bubbles.Store
import ProxmoxVEAutopilot.Bubbles.Effects
import ProxmoxVEAutopilot.Bubbles.Services
import ProxmoxVEAutopilot.Bubbles.Readiness
import ProxmoxVEAutopilot.Sequences.Store
import ProxmoxVEAutopilot.Sequences.Effects
import ProxmoxVEAutopilot.Sequences.Credentials
import ProxmoxVEAutopilot.Migration.Import
import ProxmoxVEAutopilot.Migration.NaturalKeys
import ProxmoxVEAutopilot.Migration.Legacy
import ProxmoxVEAutopilot.Migration.Migrate
import ProxmoxVEAutopilot.Migration.Phases
import ProxmoxVEAutopilot.Migration.Idempotent
import ProxmoxVEAutopilot.Migration.NewerRows
import ProxmoxVEAutopilot.Migration.DefaultSequence
import ProxmoxVEAutopilot.Install.Tracking
import ProxmoxVEAutopilot.Install.LiveItems
import ProxmoxVEAutopilot.Install.HiddenRows
import ProxmoxVEAutopilot.Onboarding.State
import ProxmoxVEAutopilot.Onboarding.AppliedPuts
import ProxmoxVEAutopilot.Setup.Artifacts
import ProxmoxVEAutopilot.Setup.Updates
import ProxmoxVEAutopilot.Setup.Convergence
import ProxmoxVEAutopilot.Setup.Uploads
import ProxmoxVEAutopilot.Telemetry.WorkItems
import ProxmoxVEAutopilot.Telemetry.WorkEnds
import ProxmoxVEAutopilot.Live.Hub
import ProxmoxVEAutopilot.Live.Collector
import ProxmoxVEAutopilot.Mcp.Approvals
import ProxmoxVEAutopilot.Mcp.Redaction
import ProxmoxVEAutopilot.Mcp.Matches
import ProxmoxVEAutopilot.Mcp.Leaks
import ProxmoxVEAutopilot.Mcp.Answers
import ProxmoxVEAutopilot.Onboarding.Requests
import ProxmoxVEAutopilot.Onboarding.Secrets
import ProxmoxVEAutopilot.Onboarding.Launch
import ProxmoxVEAutopilot.Onboarding.SingleLaunch
import ProxmoxVEAutopilot.Sdn.Labs
import ProxmoxVEAutopilot.Sdn.Consistency
import ProxmoxVEAutopilot.CloudOsd.DistinctNames
import ProxmoxVEAutopilot.Telemetry.HashFiles
import ProxmoxVEAutopilot.Foundation.Coroutines
import ProxmoxVEAutopilot.Live.Survival
import ProxmoxVEAutopilot.Foundation.Base64
import ProxmoxVEAutopilot.Foundation.Bytes
import ProxmoxVEAutopilot.Foundation.TwoRuns
import ProxmoxVEAutopilot.Sequences.LogonCommands
import ProxmoxVEAutopilot.CloudOsd.JoinSecrets
import ProxmoxVEAutopilot.Sequences.AutoLogon
import ProxmoxVEAutopilot.Ad.Keytab
import ProxmoxVEAutopilot.Smbios.Options
import ProxmoxVEAutopilot.Foundation.Literals
import ProxmoxVEAutopilot.CloudOsd.JoinScript
import ProxmoxVEAutopilot.Foundation.Lines
import ProxmoxVEAutopilot.CloudOsd.HashCapture
import ProxmoxVEAutopilot.CloudOsd.WrappedHashes
import ProxmoxVEAutopilot.WinPe.Tokens
import ProxmoxVEAutopilot.Monitor.ProxmoxConfig
import ProxmoxVEAutopilot.Monitor.ConfigTexts
import ProxmoxVEAutopilot.Monitor.ConfigDigest
import ProxmoxVEAutopilot.Foundation.Scrubbing
import ProxmoxVEAutopilot.Telemetry.Sanitizers
import ProxmoxVEAutopilot.Foundation.Buckets
import ProxmoxVEAutopilot.DeviceCache.Grouping
import ProxmoxVEAutopilot.DeviceCache.GroupedRecords
import ProxmoxVEAutopilot.Health.Phases
import ProxmoxVEAutopilot.Health.Passes
import ProxmoxVEAutopilot.Health.Sources
import ProxmoxVEAutopilot.Health.Cockpit
import ProxmoxVEAutopilot.Foundation.UrlSplit
import ProxmoxVEAutopilot.Login.SafeNext
import ProxmoxVEAutopilot.Shelf.Uploads
import ProxmoxVEAutopilot.Sdn.DhcpRanges
import ProxmoxVEAutopilot.Utm.Snapshots
import ProxmoxVEAutopilot.Foundation.KeyOrder
import ProxmoxVEAutopilot.Foundation.JsonText
import ProxmoxVEAutopilot.Manifests.ContentManifest
import ProxmoxVEAutopilot.Manifests.CanonicalDigest
import ProxmoxVEAutopilot.Ubuntu.Compiler
import ProxmoxVEAutopilot.Ubuntu.NothingLost
import ProxmoxVEAutopilot.OsDeploy.ProvisionJobs
import ProxmoxVEAutopilot.CloudOsd.WindowsNames
import ProxmoxVEAutopilot.Ubuntu.LinuxAgent
import ProxmoxVEAutopilot.CloudOsd.UnattendAgain
import ProxmoxVEAutopilot.CloudDeletes.Job
import ProxmoxVEAutopilot.CloudDeletes.Deletions
import ProxmoxVEAutopilot.CloudDeletes.Evidence
import ProxmoxVEAutopilot.CloudDeletes.Ending
import ProxmoxVEAutopilot.Jobs.Builders
import ProxmoxVEAutopilot.CloudOsd.VmidReservations
import ProxmoxVEAutopilot.Login.Sessions
