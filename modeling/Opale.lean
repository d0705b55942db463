import Opale.Laps.Alignment
import Opale.Linux.Replay
import Opale.Linux.Committed
import Opale.Linux.CurrentKey
import Opale.EmailBridge.SentOnce
import Opale.Inventory.Attempts
import Opale.Remote.Consoles
import Opale.Remote.Pinned
import Opale.Agents.Lineage
import Opale.Agents.Quota
import Opale.Agents.Binding
import Opale.AgentGo.Maintenance
import Opale.AgentGo.Versions
import Opale.AgentGo.Results
import Opale.AgentGo.Restart
import Opale.Sql.Relational
import Opale.Sql.Transactions
import Opale.Tickets.Tables
import Opale.Tickets.Statements
import Opale.Effects.Runs
import Opale.Groups.Links
import Opale.Groups.Cycles
import Opale.Inventory.Stock
import Opale.Js.Text
import Opale.Linux.Transitions
import Opale.Monitoring.Compliance
import Opale.Monitoring.Bandwidth
import Opale.Monitoring.Evaluations
import Opale.Sql.Alone
import Opale.Sql.Template
import Opale.Tickets.Columns
import Opale.Tickets.Compatibility
import Opale.Tickets.Frames
import Opale.Tickets.Merge
import Opale.Ask.Compile
import Opale.Ask.Questions
import Opale.Effects.Interruption
import Opale.EmailBridge.DeadLetters
import Opale.EmailBridge.Subjects
import Opale.EmailBridge.Threading
import Opale.Inventory.RetryBulk
import Opale.Linux.GitMirror
import Opale.Linux.MirrorRecovery
import Opale.Effects.Loops
import Opale.EmailBridge.PollCursor
import Opale.EmailBridge.PollPages
import Opale.EmailBridge.PollProgress
import Opale.EmailBridge.PollSearch
import Opale.EmailBridge.PollSeconds
import Opale.EmailBridge.PollSuspects
import Opale.EmailBridge.PollVerdict
import Opale.EmailBridge.CursorEdits
import Opale.Laps.Backoff
import Opale.AgentGo.Reinstall
import Opale.Linux.CgiResponse
import Opale.Linux.SignedRequest
import Opale.Linux.EscrowOrder
import Opale.Linux.Hostnames
import Opale.Groups.Effective
import Opale.Ask.Parameters
import Opale.Ask.Names
import Opale.Groups.CycleCheck
import Opale.Linux.DeviceRate
import Opale.EmailBridge.MessageIds
import Opale.Inventory.Truncation
import Opale.EmailBridge.MessageKeys
import Opale.EmailBridge.Replies
import Opale.Migrations.Applied
import Opale.MigrateInstance.Copied
import Opale.Modules.Loader
import Opale.Linux.Spec
import Opale.AgentGo.Consoles
import Opale.AgentGo.AtomicFile
import Opale.EmailBridge.GraphSend
import Opale.EmailBridge.Mailroom
import Opale.Linux.Lifecycle
