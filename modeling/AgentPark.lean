import AgentPark.Runtime.ConfigWrite
import AgentPark.Runtime.Scheduler
import AgentPark.Runtime.NodeRun
import AgentPark.Runtime.IdempotentQueue
import AgentPark.Runtime.HeldOutputs
import AgentPark.Cron.Cancel
import AgentPark.Groups.Frames
import AgentPark.Groups.Renaming
import AgentPark.Cron.Rights
import AgentPark.Nodes.Rollback
import AgentPark.Gateway.Agreement
import AgentPark.Peers.Executor
import AgentPark.Providers.Pressure
import AgentPark.Events.Notices
import AgentPark.Peers.Channel
import AgentPark.Peers.Connections
import AgentPark.Files.KeyedQueue
import AgentPark.Web.LiveOutput
import AgentPark.Workspace.DeviceSwitch
import AgentPark.Agents.StepLedger
import AgentPark.Agents.DirectionUpdates
import AgentPark.Workspace.ConsoleOutput
import AgentPark.Restart.Runs
import AgentPark.Patching.Commit
import AgentPark.Nodes.Visibility
import AgentPark.Groups.Dependencies
import AgentPark.Layout.Repair
import AgentPark.Memory.ReversedReader
import AgentPark.Nodes.ScheduledRegistry
import AgentPark.Sync.Blobs
import AgentPark.Memory.Conversation
import AgentPark.Groups.ImportSteps
import AgentPark.Gateway.Collect
import AgentPark.Gateway.ResponsesRequest
import AgentPark.Gateway.SseTransport
import AgentPark.Providers.ContextReplacement
import AgentPark.Providers.CallArguments
import AgentPark.Providers.SegmentText
import AgentPark.Providers.WindowRuns
import AgentPark.Tools.CommandResult
import AgentPark.Providers.PlaybackBuffer
import AgentPark.Providers.SpeechFrame
import AgentPark.Web.EventStream
import AgentPark.Tools.FileWrite
import AgentPark.Events.SourceRules
import AgentPark.Tools.FileRead
import AgentPark.Tools.RgSearch
import AgentPark.Groups.History
import AgentPark.Knowledge.Passages
import AgentPark.Nodes.RouteLinks
import AgentPark.Nodes.TimerTrigger
import AgentPark.Sync.Journal
