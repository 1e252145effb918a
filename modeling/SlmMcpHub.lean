import SlmMcpHub.Library.Attempts
import SlmMcpHub.Library.Backlog
import SlmMcpHub.Library.Coroutine
import SlmMcpHub.Library.CoroutineLogic
import SlmMcpHub.Library.CoroutineRun
import SlmMcpHub.Library.Deque
import SlmMcpHub.Library.Dict
import SlmMcpHub.Library.Double
import SlmMcpHub.Library.Execution
import SlmMcpHub.Library.Fallible
import SlmMcpHub.Library.Glob
import SlmMcpHub.Library.Grouping
import SlmMcpHub.Library.History
import SlmMcpHub.Library.Html
import SlmMcpHub.Library.IntLiteral
import SlmMcpHub.Library.IpAddress
import SlmMcpHub.Library.Json
import SlmMcpHub.Library.JsonScalars
import SlmMcpHub.Library.JsonText
import SlmMcpHub.Library.Migrations
import SlmMcpHub.Library.Nested
import SlmMcpHub.Library.Operation
import SlmMcpHub.Library.Rank
import SlmMcpHub.Library.Recency
import SlmMcpHub.Library.Replacement
import SlmMcpHub.Library.RestLogic
import SlmMcpHub.Library.Rounding
import SlmMcpHub.Library.Simulation
import SlmMcpHub.Library.StackDiscipline
import SlmMcpHub.Library.Text
import SlmMcpHub.Library.Transition
import SlmMcpHub.Library.Walk
import SlmMcpHub.Library.WhileLoop
import SlmMcpHub.Library.WireValue
import SlmMcpHub.Library.Worklist
import SlmMcpHub.Auth.AccountKey
import SlmMcpHub.Auth.Callback
import SlmMcpHub.Auth.RefreshLock
import SlmMcpHub.Auth.TokenStore
import SlmMcpHub.Auth.TransportPolicy
import SlmMcpHub.Core.ChangeFlag
import SlmMcpHub.Core.Config
import SlmMcpHub.Core.ConfigIO
import SlmMcpHub.Core.Placeholders
import SlmMcpHub.Core.Registry
import SlmMcpHub.Core.SaveConfig
import SlmMcpHub.Core.ServerRoundTrip
import SlmMcpHub.Core.SettingsFrame
import SlmMcpHub.Core.Snapshots
import SlmMcpHub.Discovery.AutoRegister
import SlmMcpHub.Discovery.Backups
import SlmMcpHub.Discovery.Transparent
import SlmMcpHub.Federation.Agreement
import SlmMcpHub.Federation.ChangeNotification
import SlmMcpHub.Federation.ConcurrencyGate
import SlmMcpHub.Federation.ConnectGate
import SlmMcpHub.Federation.Connection
import SlmMcpHub.Federation.ConnectionTasks
import SlmMcpHub.Federation.Contracts
import SlmMcpHub.Federation.Discipline
import SlmMcpHub.Federation.Dispatch
import SlmMcpHub.Federation.Draining
import SlmMcpHub.Federation.Effects
import SlmMcpHub.Federation.Hub
import SlmMcpHub.Federation.IdleSweep
import SlmMcpHub.Federation.Manager
import SlmMcpHub.Federation.NameStability
import SlmMcpHub.Federation.Namespace
import SlmMcpHub.Federation.Ownership
import SlmMcpHub.Federation.References
import SlmMcpHub.Federation.Retention
import SlmMcpHub.Federation.Revival
import SlmMcpHub.Federation.Routing
import SlmMcpHub.Federation.Runs
import SlmMcpHub.Federation.Signature
import SlmMcpHub.Federation.System
import SlmMcpHub.Federation.Transitions
import SlmMcpHub.Federation.Transports
import SlmMcpHub.Intelligence.Cache
import SlmMcpHub.Intelligence.Cost
import SlmMcpHub.Lifecycle.ConfigDiff
import SlmMcpHub.Lifecycle.Convergence
import SlmMcpHub.Lifecycle.Frame
import SlmMcpHub.Lifecycle.LiveCap
import SlmMcpHub.Lifecycle.Notifier
import SlmMcpHub.Lifecycle.ReloadFrame
import SlmMcpHub.Lifecycle.Reloader
import SlmMcpHub.Lifecycle.Reports
import SlmMcpHub.Lifecycle.Runtime
import SlmMcpHub.Observability.Dashboard
import SlmMcpHub.Observability.EventStream
import SlmMcpHub.Observability.EventText
import SlmMcpHub.Protocol.ConnectMode
import SlmMcpHub.Protocol.ContentBlock
import SlmMcpHub.Protocol.Conversion
import SlmMcpHub.Protocol.Discovery
import SlmMcpHub.Protocol.DottedArguments
import SlmMcpHub.Protocol.Inbound
import SlmMcpHub.Protocol.Models
import SlmMcpHub.Protocol.ProbeRejection
import SlmMcpHub.Protocol.ProductOperations
import SlmMcpHub.Protocol.ServerGroups
import SlmMcpHub.Protocol.ToolResult
import SlmMcpHub.Resilience.Agreement
import SlmMcpHub.Resilience.CauseChain
import SlmMcpHub.Resilience.Classifier
import SlmMcpHub.Resilience.Supervision
import SlmMcpHub.Resilience.Supervisor
import SlmMcpHub.Resilience.SupervisorView
import SlmMcpHub.Resilience.Webhook
import SlmMcpHub.Security.Audit
import SlmMcpHub.Security.Permissions
import SlmMcpHub.Server.HttpServer
import SlmMcpHub.Server.McpEndpoint
import SlmMcpHub.Server.ProxyEndpoint
import SlmMcpHub.Server.Sessions
import SlmMcpHub.Server.StdioServer
import SlmMcpHub.Server.StdioText
import SlmMcpHub.Session.Coordination
import SlmMcpHub.Session.SessionManager
import SlmMcpHub.Storage.Database
import SlmMcpHub.Storage.Schema
import SlmMcpHub.Storage.SchemaVersion
import SlmMcpHub.Streaming.EventLog
import SlmMcpHub.Streaming.EventReplay
import SlmMcpHub.Streaming.EventStore
import SlmMcpHub.Streaming.EventStoreRun
import SlmMcpHub.Streaming.SafeResume
import SlmMcpHub.Cli.ServerCommands
import SlmMcpHub.Cli.ServerTable
