import Mathlib.Data.Finset.Erase
import Mathlib.Data.Finset.Insert
import UnixDomainStream.Library.Executor
import UnixDomainStream.NotificationScope
import UnixDomainStream.Peer
import UnixDomainStream.RequestManager

/-!
# The state of a server

The members of `server_state`, divided by the thread that changes them, with the
handlers and jobs that it queues.  Acceptors, timers and peers are named by
serial numbers.  A handler or job carries what its lambda captured; a bind
attempt's number goes along wherever a notification can be traced to it.
-/

namespace UnixDomainStream.Server

open Protocol (Bytes)

/-- Where the construction of an endpoint, or the bind handler, fails. -/
inductive BindStage where
  | endpoint
  | open
  | bind
  | listen
  deriving DecidableEq, Repr

inductive BindOutcome where
  | succeeded
  | failed (stage : BindStage) (errorCode : ErrorCode)
  deriving DecidableEq, Repr

inductive AcceptResult where
  | error (errorCode : ErrorCode)
  | socket (credentials : PeerCredentials)
  deriving DecidableEq, Repr

/-- An outstanding `async_accept`. -/
structure Accept where
  attempt : Nat
  token : Nat
  deriving DecidableEq, Repr

/-- What the handlers of one health-check probe capture.  The timer identifies
the probe; `attempt` is the acceptor it was started on. -/
structure Probe where
  timeout : Nat
  token : Nat
  attempt : Nat
  deriving DecidableEq, Repr

/-- An accepted peer is named by its id, the peer of a probe by its timer. -/
inductive PeerRef where
  | accepted (id : Nat)
  | probe (timeout : Nat)
  deriving DecidableEq, Repr

/-- What the slots connected to a peer's signals capture. -/
inductive Slots where
  | accepted (id : Nat) (credentials : PeerCredentials) (token : Nat)
  | healthCheck (probe : Probe)
  deriving DecidableEq, Repr

def Slots.ref : Slots → PeerRef
  | .accepted id _ _ => .accepted id
  | .healthCheck probe => .probe probe.timeout

/-- A peer object with the slots connected to its signals. -/
structure Connection (ref : PeerRef) where
  peer : Peer
  slots : Slots
  named : slots.ref = ref

/-- The members that the I/O thread changes, and the operations outstanding on
them. -/
structure Io where
  acceptor : Option Nat := none
  /-- The accepts outstanding on the acceptor. -/
  accepts : List Accept := []
  nextAttempt : Nat := 0
  requestManager : RequestManager Nat Nat := {}
  /-- The keys of `peers_`; the value of key `id` is the peer accepted as `id`. -/
  peers : List Nat := []
  nextPeerId : Nat := 0
  /-- The peer objects that are alive. -/
  connections : (ref : PeerRef) → Option (Connection ref) := fun _ => none
  socketPathHealthCheckPeer : Option Nat := none
  socketPathHealthCheckTimeout : Option Nat := none
  nextTimeout : Nat := 0
  /-- The probes whose timer wait is outstanding. -/
  timeoutWaits : List Probe := []
  /-- The probes whose `async_connect` is outstanding. -/
  connects : List Probe := []
  /-- The probes whose socket was closed after its connect had completed. -/
  closedSockets : List Nat := []

/-- The members that the dispatcher thread changes. -/
structure Dispatcher where
  notificationScope : NotificationScope := {}
  exposedPeerIds : Finset Nat := ∅
  bindRetryTask : DebouncedTask := {}
  socketPathHealthCheckTimer : PeriodicTimer := {}
  deriving DecidableEq

/-- The I/O handlers. -/
inductive Handler where
  | bind (token : Nat)
  | stop
  | accept (accept : Accept) (result : AcceptResult)
  | peer (ref : PeerRef) (handler : PeerHandler)
  | send (id : Nat) (data : Bytes)
  | respond (id : Nat) (requestId : UInt64) (data : Bytes)
  | request (call : Nat) (id : Nat) (data : Bytes)
  | closePeer (id : Nat)
  | requestTimer (timer : RequestTimer Nat)
  | responseReceived (id : Nat) (requestId : UInt64) (buffer : Bytes)
  | errorOccurred (id : Nat) (errorCode : ErrorCode)
  | closed (id : Nat)
  | socketPathHealthCheck (token : Nat)
  | healthCheckTimeout (probe : Probe) (errorCode : ErrorCode)
  | healthCheckConnect (probe : Probe) (errorCode : ErrorCode)
  | healthCheckResponse (probe : Probe)
  | healthCheckFailed (probe : Probe) (errorCode : ErrorCode)
  deriving DecidableEq, Repr

/-- The functions enqueued through the notification scope. -/
inductive Notice where
  | bound (attempt : Nat)
  | bindFailed (attempt : Nat) (errorCode : ErrorCode)
  | closed (attempt : Nat)
  | ready (id : Nat) (credentials : PeerCredentials)
  deriving DecidableEq, Repr

/-- The dispatcher jobs, and the effects into which they are divided. -/
inductive Job where
  | start
  | bind
  | stop
  | invalidateScope
  | cancelBindRetry
  | stopHealthCheckTimer
  | clearExposedPeerIds
  | postStop
  | notify (token : Nat) (notice : Notice)
  | startHealthCheckTimer
  | scheduleBindRetry
  | debounceBindRetry
  | signal (slots : Slots) (signal : Signal)
  | enqueuePeerErrorOccurred (id : Nat) (errorCode : ErrorCode)
  | enqueuePeerClosed (id : Nat)
  | received (id : Nat) (buffer : Bytes)
  | requestReceived (id : Nat) (requestId : UInt64) (buffer : Bytes)
  | peerErrorOccurred (id : Nat) (errorCode : ErrorCode)
  | peerClosed (id : Nat)
  | requestCallback (call : Nat) (errorCode : ErrorCode) (data : Option Bytes)
  | bindRetryDebounced
  | bindRetryCancelled
  | bindRetry (generation : Nat)
  | healthCheckTimerStarted
  | healthCheckTimerStopped
  | healthCheckTimerCall (functionId : Nat)
  | socketPathHealthCheck
  deriving DecidableEq, Repr

/-- What the outside sees, and the four records that statements refer to:
`accepted`, `frameRead`, `requestIssued` and `requestSent`. -/
inductive Event where
  | bound (attempt : Nat)
  | bindFailed (attempt : Nat) (errorCode : ErrorCode)
  | closed (attempt : Nat)
  | peerConnected (id : Nat) (credentials : PeerCredentials)
  | peerClosed (id : Nat)
  | peerErrorOccurred (id : Nat) (errorCode : ErrorCode)
  | received (id : Nat) (buffer : Bytes)
  | requestReceived (id : Nat) (requestId : UInt64) (buffer : Bytes)
  | verifyPeer (id : Nat) (credentials : PeerCredentials) (verdict : Bool)
  | requestCallback (call : Nat) (errorCode : ErrorCode) (data : Option Bytes)
  | accepted (id : Nat) (credentials : PeerCredentials)
  | frameRead (ref : PeerRef) (body : Bytes)
  | requestIssued (call : Nat)
  | requestSent (call : Nat) (requestId : Nat) (id : Nat)
  deriving DecidableEq, Repr

/-- What happens outside: the public calls, the completion of operations, and the
end of a peer nobody holds. -/
inductive Input where
  | asyncStart
  | asyncStop
  | asyncSend (id : Nat) (data : Bytes)
  | asyncRespond (id : Nat) (requestId : UInt64) (data : Bytes)
  | asyncRequest (call : Nat) (id : Nat) (data : Bytes)
  | asyncClosePeer (id : Nat)
  | acceptCompletes (result : AcceptResult)
  | peerCompletes (ref : PeerRef) (completion : PeerCompletion)
  | requestExpires (requestId : Nat)
  | healthCheckExpires (timeout : Nat)
  | healthCheckConnects (timeout : Nat) (errorCode : ErrorCode)
  | destroy (ref : PeerRef)
  deriving DecidableEq, Repr

end UnixDomainStream.Server
