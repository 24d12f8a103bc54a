import UnixDomainStream.Library.BigEndian
import UnixDomainStream.Library.Appends
import UnixDomainStream.Library.Ledger
import UnixDomainStream.Library.Transition
import UnixDomainStream.Library.PrefixCode
import UnixDomainStream.Library.Pieces
import UnixDomainStream.Library.StableQueue
import UnixDomainStream.Library.Executor
import UnixDomainStream.Library.FileSystem
import UnixDomainStream.Dispatcher
import UnixDomainStream.Dispatcher.Order
import UnixDomainStream.Dispatcher.Detaching
import UnixDomainStream.Dispatcher.Cleaning
import UnixDomainStream.Dispatcher.Refinement
import UnixDomainStream.Options
import UnixDomainStream.Protocol
import UnixDomainStream.Grammar
import UnixDomainStream.Peer
import UnixDomainStream.PeerTurn
import UnixDomainStream.Reader
import UnixDomainStream.RoundTrip
import UnixDomainStream.Acceptance
import UnixDomainStream.RequestManager
import UnixDomainStream.RequestCompletion
import UnixDomainStream.NotificationScope
import UnixDomainStream.Server.State
import UnixDomainStream.Server.Handlers
import UnixDomainStream.Server.Jobs
import UnixDomainStream.Server.Program
import UnixDomainStream.Server.Internal
import UnixDomainStream.Server.Pieces
import UnixDomainStream.Server.Moves
import UnixDomainStream.Server.Stopping
import UnixDomainStream.Server.Tokens
import UnixDomainStream.Server.Binding
import UnixDomainStream.Server.Probes
import UnixDomainStream.Server.Closures
import UnixDomainStream.Server.Provenance
import UnixDomainStream.Server.Requests
import UnixDomainStream.Server.Isolation
import UnixDomainStream.Server.Lifecycle
import UnixDomainStream.Server.CalmLifecycle
import UnixDomainStream.Server.Simulation
import UnixDomainStream.Server.Notifications
import UnixDomainStream.Server.RequestTimeouts
import UnixDomainStream.Server.Delivery
import UnixDomainStream.Peer.Pieces
import UnixDomainStream.Peer.Messages
import UnixDomainStream.Peer.Readings
import UnixDomainStream.Delivery
import UnixDomainStream.SizeLimits
import UnixDomainStream.Server.HealthChecks
import UnixDomainStream.Peer.Program
import UnixDomainStream.Peer.Signals
import UnixDomainStream.Peer.Timers
import UnixDomainStream.Peer.Deadlines
import UnixDomainStream.Peer.Writes
import UnixDomainStream.Client.State
import UnixDomainStream.Client.Handlers
import UnixDomainStream.Client.Jobs
import UnixDomainStream.Client.Program
import UnixDomainStream.Client.Pieces
import UnixDomainStream.Client.Connection
import UnixDomainStream.Client.Cleaning
import UnixDomainStream.Client.Moves
import UnixDomainStream.Client.Requests
import UnixDomainStream.Client.Tokens
import UnixDomainStream.Client.Tracking
import UnixDomainStream.Client.Isolation
import UnixDomainStream.Client.Reports
import UnixDomainStream.Client.Pacing
import UnixDomainStream.Client.Traces
import UnixDomainStream.Client.Reconnecting
import UnixDomainStream.Runtime
import UnixDomainStream.Runtime.Registry
import UnixDomainStream.Runtime.Ownership
import UnixDomainStream.Runtime.Orphans
import UnixDomainStream.Runtime.Lifetimes
import UnixDomainStream.Peer.Lifetime
import UnixDomainStream.Peer.Carried
import UnixDomainStream.Link
import UnixDomainStream.Link.Sending
import UnixDomainStream.Link.Receiving
import UnixDomainStream.Link.Delivery
