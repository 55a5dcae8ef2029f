import TaskHandoff.Stories.DecisionDelivery
import TaskHandoff.AiSessions.Feed
import TaskHandoff.AiSessions.AggregatorReplay
import TaskHandoff.AiSessions.ForwarderCoalescing
import TaskHandoff.Relay.Registry
import TaskHandoff.Relay.SocketClose
import TaskHandoff.Relay.Writers
import TaskHandoff.Events.DeltaCoalescerThreads
import TaskHandoff.Events.ControlPlaneBus
import TaskHandoff.Events.ForwarderDemand
import TaskHandoff.Events.ReplayToClient
import TaskHandoff.AiSessions.QueueDelivery
import TaskHandoff.CloudNodes.Forget
import TaskHandoff.CloudNodes.Lifecycle
import TaskHandoff.AiSessions.ForestFilter
import TaskHandoff.Repository.MutationQueue
import TaskHandoff.AiSessions.MessageQueue
import TaskHandoff.AiSessions.HistoryTrees
import TaskHandoff.AiSessions.TimelineSync
import TaskHandoff.Repository.WorktreeCreation
import TaskHandoff.Attachments.BlobRuns
import TaskHandoff.ModelRelay.SseEvents
import TaskHandoff.Persistence.Reads
import TaskHandoff.Persistence.SyncWrites
import TaskHandoff.AgentRuns.Once
import TaskHandoff.AgentRuns.Deadlock
import TaskHandoff.Persistence.TrustConstraints
import TaskHandoff.Stories.DocumentRecovery
import TaskHandoff.Stories.DocumentReading
import TaskHandoff.Stories.AutomationSlots
import TaskHandoff.Stories.AutomationTimersFollow
import TaskHandoff.Persistence.InstanceCacheCoherent
import TaskHandoff.Persistence.TransactionJournal
import TaskHandoff.DeviceTrust.SessionsClosed
import TaskHandoff.RelaySession.SessionInert
import TaskHandoff.WebSocketBridge.Closing
import TaskHandoff.BrowserTunnel.Runs
import TaskHandoff.DeviceTrust.ShareRevisions
import TaskHandoff.DeviceTrust.TrustGranted
import TaskHandoff.NodeAuth.AcceptedOnce
import TaskHandoff.Triggers.Interleavings
import TaskHandoff.NodePairing.NeverOrphaned
import TaskHandoff.NodeRelay.OutboundQueue
import TaskHandoff.NodeRelay.Receiving
import TaskHandoff.Provisioning.ImagePull
import TaskHandoff.Provisioning.GitProgress
import TaskHandoff.Repository.ReconcileAgain
import TaskHandoff.Attachments.Resolution
import TaskHandoff.Repository.GitStatus
import TaskHandoff.Repository.StructuredDiff
