import NostdbServer.Effects.Prog
import NostdbServer.Effects.Wp
import NostdbServer.Effects.Exec
import NostdbServer.Effects.Pool
import NostdbServer.Effects.Discipline
import NostdbServer.Effects.Noted
import NostdbServer.Effects.Accounts
import NostdbServer.Effects.Race
import NostdbServer.Effects.Locks
import NostdbServer.Effects.Tree
import NostdbServer.Effects.UnixPath
import NostdbServer.Effects.Stream
import NostdbServer.Effects.History
import NostdbServer.Effects.Files
import NostdbServer.Effects.Codec
import NostdbServer.Failure
import NostdbServer.Engine
import NostdbServer.Protocol.Json
import NostdbServer.Protocol.Messages
import NostdbServer.Protocol.Wire
import NostdbServer.Protocol.Parameters
import NostdbServer.Protocol.Credentials
import NostdbServer.Daemon.Initialize
import NostdbServer.Daemon.Authentication
import NostdbServer.Daemon.InitRules
import NostdbServer.Daemon.Rollback
import NostdbServer.Daemon.Initialized
import NostdbServer.Catalog.Entries
import NostdbServer.Restore.Site
import NostdbServer.Restore.Operation
import NostdbServer.Restore.Recovery
import NostdbServer.Daemon.State
import NostdbServer.Catalog.Store
import NostdbServer.Daemon.Lifecycle
import NostdbServer.Restore.Rules
import NostdbServer.Restore.Specs
import NostdbServer.Restore.Noted
import NostdbServer.Restore.Refused
import NostdbServer.Restore.Leads
import NostdbServer.Restore.Safety
import NostdbServer.Restore.Concurrent
import NostdbServer.Daemon.Frame
import NostdbServer.Daemon.Recovery
import NostdbServer.Daemon.RestoreRuns
import NostdbServer.Catalog.Valid
import NostdbServer.Catalog.Map
import NostdbServer.Daemon.Rules
import NostdbServer.Daemon.Failing
import NostdbServer.Catalog.Loading
import NostdbServer.Catalog.Loads
import NostdbServer.Daemon.Idempotence
import NostdbServer.Daemon.Open
import NostdbServer.Catalog.Transition
import NostdbServer.Catalog.Compensation
import NostdbServer.Catalog.Durable
import NostdbServer.Daemon.Steps
import NostdbServer.Daemon.Changes
import NostdbServer.Daemon.Atomicity
import NostdbServer.Daemon.Replies
import NostdbServer.Daemon.Access
import NostdbServer.Daemon.Calls
import NostdbServer.Daemon.Halted
import NostdbServer.Daemon.Restarts
import NostdbServer.Daemon.Agreement
import NostdbServer.Daemon.Tally
import NostdbServer.Daemon.Sight
import NostdbServer.Protocol.Connection
import NostdbServer.Protocol.Conversation
import NostdbServer.Protocol.Deadlock
import NostdbServer.Protocol.Workers
import NostdbServer.Protocol.Transactions
import NostdbServer.Protocol.Turns
import NostdbServer.Protocol.Framing
import NostdbServer.Protocol.Statements
import NostdbServer.Protocol.Sizes
import NostdbServer.Protocol.Authorization
import NostdbServer.Protocol.Server
import NostdbServer.Protocol.Links
import NostdbServer.Protocol.Responses
import NostdbServer.Protocol.Cancellation
import NostdbServer.Protocol.Uploads
import NostdbServer.Effects.Base64
import NostdbServer.Protocol.Moments
import NostdbServer.Protocol.Snapshots
import NostdbServer.Protocol.Replacement
import NostdbServer.Protocol.Outcomes
import NostdbServer.Import.Package
import NostdbServer.Http.Adapter
import NostdbServer.Http.Snapshot
import NostdbServer.Import.ModulePaths
import NostdbServer.Import.Directory
import NostdbServer.Import.Leftovers
import NostdbServer.Http.Imports
import NostdbServer.Http.Restart
import NostdbServer.Http.Queries
import NostdbServer.Http.Races
import NostdbServer.Http.Response
import NostdbServer.Http.Routes
import NostdbServer.Http.Sessions
import NostdbServer.ReadOnly
import NostdbServer.Protocol.Tallies
import NostdbServer.Protocol.Binding
