import OpenGeni.Agent.JobCredit
import OpenGeni.Agent.JobStall
import OpenGeni.Agent.JobQuota
import OpenGeni.Agent.AdmitWake
import OpenGeni.Engine.AdmissionFair
import OpenGeni.Agent.LegacyReply
import OpenGeni.Relay.Superseded
import OpenGeni.Stream.PtyPump
import OpenGeni.Worker.SessionInterrupts
import OpenGeni.Worker.SessionQueue
import OpenGeni.Worker.SessionApprovals
import OpenGeni.Sandbox.DrainCapture
import OpenGeni.Sandbox.SnapshotLedger
import OpenGeni.Db.LeaseCounters
import OpenGeni.Db.SupersededDispatch
import OpenGeni.Db.SessionLocks
import OpenGeni.Db.CapacityWakeups
import OpenGeni.Db.CapacityResume
import OpenGeni.Db.GoalAccounting
import OpenGeni.Db.SessionEvents
import OpenGeni.Db.ChildCompletions
import OpenGeni.Worker.HistoryRows
import OpenGeni.Stream.ServerStream
import OpenGeni.Worker.RuntimeBatcher
import OpenGeni.Stream.ClientStream
import OpenGeni.Runtime.RoutingSession
import OpenGeni.Worker.WorkspaceCapture
import OpenGeni.Runtime.CommandOnce
import OpenGeni.Stream.OpCredit
import OpenGeni.Stream.SseRoundTrip
import OpenGeni.Core.ActiveSwap
import OpenGeni.Machines.LinkEvents
import OpenGeni.Files.Uploads
import OpenGeni.Documents.Indexing
import OpenGeni.Billing.StripeWebhook
import OpenGeni.Connections.OAuthFetch
import OpenGeni.Connections.ReturnPath
import OpenGeni.Connections.ToolNames
import OpenGeni.Connections.TokenResolver
import OpenGeni.Machines.EnrollmentConsent
import OpenGeni.Core.SessionStart
import OpenGeni.Contracts.TokenKinds
import OpenGeni.Engine.RetentionFaults
import OpenGeni.Agent.JobLife
import OpenGeni.Agent.PipeHold
import OpenGeni.Agent.Supervisor
import OpenGeni.Update.SelfUpdate
import OpenGeni.Db.UserStop
import OpenGeni.Worker.ScheduledRun
import OpenGeni.Rigs.RigMerge
import OpenGeni.Memory.MemoryRun
import OpenGeni.Worker.CodexSelection
import OpenGeni.Db.WarmingBudget
import OpenGeni.Db.HumanPreempt
import OpenGeni.React.CallOutputs
import OpenGeni.Engine.RegistryLost
import OpenGeni.Db.ArchiveFold
import OpenGeni.Runtime.OpIds
import OpenGeni.Worker.AttachEnvironment
import OpenGeni.Worker.Redaction
import OpenGeni.Runtime.BoundedReads
import OpenGeni.Runtime.GitStatus
import OpenGeni.Runtime.InputBudget
import OpenGeni.Documents.Chunking
