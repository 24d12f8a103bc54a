import UnixDomainStream.Library.Executor
import UnixDomainStream.NotificationScope
import UnixDomainStream.Peer
import UnixDomainStream.RequestManager

/-!
# The state of a client

The members of `client_state`, divided by the thread that changes them, with the
handlers and jobs that it queues.  Connect attempts are named by serial numbers; an
attempt's socket and the peer made of it keep its number.  A handler or job carries
what its lambda captured, and a notification the attempt that it is about.
-/

namespace UnixDomainStream.Client

open Protocol (Bytes)

/-- Whether `make_endpoint` succeeds. -/
inductive Endpoint where
  | constructed
  | failed (errorCode : ErrorCode)
  deriving DecidableEq, Repr

inductive ConnectResult where
  | error (errorCode : ErrorCode)
  | socket (credentials : PeerCredentials)
  deriving DecidableEq, Repr

/-- What the handler of `async_connect` captures. -/
structure Connect where
  attempt : Nat
  token : Nat
  deriving DecidableEq, Repr

/-- A peer object, with what the slots connected to its signals capture. -/
structure Connection where
  peer : Peer
  token : Nat

/-- The members that the I/O thread changes, and the operations outstanding on them. -/
structure Io where
  /-- `connecting_socket_`, by its attempt. -/
  connectingSocket : Option Nat := none
  /-- `peer_`, by its attempt. -/
  peer : Option Nat := none
  requestManager : RequestManager Nat Nat := {}
  nextAttempt : Nat := 0
  /-- The connects outstanding. -/
  connects : List Connect := []
  /-- The peer objects that are alive. -/
  connections : Nat → Option Connection := fun _ => none

/-- The members that the dispatcher thread changes. -/
structure Dispatcher where
  notificationScope : NotificationScope := {}
  reconnectTask : DebouncedTask := {}
  deriving DecidableEq

/-- The I/O handlers. -/
inductive Handler where
  | connect (token : Nat)
  | connectCompleted (connect : Connect) (result : ConnectResult)
  | handleConnectedSocket (attempt : Nat) (credentials : PeerCredentials) (verified : Bool)
      (token : Nat)
  | stop
  | invalidateConnection (token : Nat)
  | peer (attempt : Nat) (handler : PeerHandler)
  | connected (attempt : Nat) (credentials : PeerCredentials) (token : Nat)
  | received (attempt : Nat) (buffer : Bytes) (token : Nat)
  | requestReceived (attempt : Nat) (requestId : UInt64) (buffer : Bytes) (token : Nat)
  | responseReceived (attempt : Nat) (requestId : UInt64) (buffer : Bytes)
  | errorOccurred (attempt : Nat) (errorCode : ErrorCode) (token : Nat)
  | closed (attempt : Nat) (token : Nat)
  | send (data : Bytes)
  | respond (requestId : UInt64) (data : Bytes)
  | request (call : Nat) (data : Bytes)
  | requestTimer (timer : RequestTimer Nat)
  deriving DecidableEq, Repr

/-- The functions enqueued through the notification scope. -/
inductive Notice where
  | connectFailed (attempt : Nat) (errorCode : ErrorCode)
  | verifyPeer (attempt : Nat) (credentials : PeerCredentials) (token : Nat)
  | peerVerificationFailed (attempt : Nat) (credentials : PeerCredentials)
  | connected (attempt : Nat) (credentials : PeerCredentials)
  | received (attempt : Nat) (buffer : Bytes)
  | requestReceived (attempt : Nat) (requestId : UInt64) (buffer : Bytes)
  | errorOccurred (attempt : Nat) (errorCode : ErrorCode)
  | closed (attempt : Nat)
  | scheduleReconnect
  deriving DecidableEq, Repr

/-- The dispatcher jobs, and the effects into which they are divided. -/
inductive Job where
  | start
  | connect
  | stop
  | invalidateConnection
  | invalidateScope
  | cancelReconnect
  | postStop
  | postInvalidateConnection
  | notify (token : Nat) (notice : Notice)
  | scheduleReconnect
  | reconnectDebounced
  | reconnectCancelled
  | reconnect (generation : Nat)
  | signal (attempt : Nat) (token : Nat) (signal : Signal)
  | requestCallback (call : Nat) (errorCode : ErrorCode) (data : Option Bytes)
  deriving DecidableEq, Repr

/-- What the outside sees, and the three records that statements refer to:
`frameRead`, `requestIssued` and `requestSent`. -/
inductive Event where
  | connected (attempt : Nat) (credentials : PeerCredentials)
  | peerVerificationFailed (attempt : Nat) (credentials : PeerCredentials)
  | connectFailed (attempt : Nat) (errorCode : ErrorCode)
  | closed (attempt : Nat)
  | errorOccurred (attempt : Nat) (errorCode : ErrorCode)
  | received (attempt : Nat) (buffer : Bytes)
  | requestReceived (attempt : Nat) (requestId : UInt64) (buffer : Bytes)
  | verifyPeer (attempt : Nat) (credentials : PeerCredentials) (verdict : Bool)
  | requestCallback (call : Nat) (errorCode : ErrorCode) (data : Option Bytes)
  | frameRead (attempt : Nat) (body : Bytes)
  | requestIssued (call : Nat)
  | requestSent (call : Nat) (requestId : Nat) (attempt : Nat)
  deriving DecidableEq, Repr

/-- What happens outside: the public calls, the completion of operations, and the
end of a peer nobody holds. -/
inductive Input where
  | asyncStart
  | asyncStop
  | asyncInvalidateConnection
  | asyncSend (data : Bytes)
  | asyncRespond (requestId : UInt64) (data : Bytes)
  | asyncRequest (call : Nat) (data : Bytes)
  | connectCompletes (attempt : Nat) (result : ConnectResult)
  | peerCompletes (attempt : Nat) (completion : PeerCompletion)
  | requestExpires (requestId : Nat)
  | destroy (attempt : Nat)
  deriving DecidableEq, Repr

end UnixDomainStream.Client
