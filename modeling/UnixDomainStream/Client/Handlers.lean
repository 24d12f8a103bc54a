import UnixDomainStream.Client.State

/-!
# The I/O handlers of a client
-/

namespace UnixDomainStream.Client

open Protocol

/-- The frame body that a handler of a peer has received. -/
def framesRead (attempt : Nat) : PeerHandler → List Event
  | .readBody .success body => [.frameRead attempt body]
  | _ => []

/-- A handler in progress. -/
structure Turn where
  io : Io
  posts : List Handler := []
  jobs : List Job := []
  events : List Event := []

namespace Turn

def post (handler : Handler) (turn : Turn) : Turn :=
  { turn with posts := turn.posts ++ [handler] }

def enqueue (job : Job) (turn : Turn) : Turn :=
  { turn with jobs := turn.jobs ++ [job] }

def emit (event : Event) (turn : Turn) : Turn :=
  { turn with events := turn.events ++ [event] }

/-- A call to the request manager. -/
def request (call : RequestManager Nat Nat → RequestTurn Nat Nat) (turn : Turn) : Turn :=
  let result := call turn.io.requestManager
  { turn with
    io := { turn.io with requestManager := result.manager }
    posts := turn.posts ++ result.posted.map .requestTimer
    jobs := turn.jobs ++ result.completions.map fun completion =>
      .requestCallback completion.callback completion.errorCode completion.data }

/-- Run a handler of a peer.  Its signals carry the slots' captures. -/
def runPeer (options : CommonOptions) (attempt : Nat) (handler : PeerHandler) (turn : Turn) :
    Turn :=
  match turn.io.connections attempt with
  | none => turn
  | some connection =>
      let result := PeerTurn.run options handler { peer := connection.peer }
      { turn with
        io := { turn.io with
          connections := Function.update turn.io.connections attempt
            (some { connection with peer := result.peer }) }
        posts := turn.posts ++ result.posted.map (.peer attempt)
        jobs := turn.jobs ++ result.signals.map (.signal attempt connection.token)
        events := turn.events ++ framesRead attempt handler }

/-- Post to the current peer. -/
def toPeer (handler : PeerHandler) (turn : Turn) : Turn :=
  match turn.io.peer with
  | none => turn
  | some attempt => turn.post (.peer attempt handler)

/-- `socket->close()`, which aborts the outstanding connect of the attempt. -/
def closeSocket (attempt : Nat) (turn : Turn) : Turn :=
  { turn with
    io := { turn.io with
      connects := turn.io.connects.filter fun connect => connect.attempt != attempt }
    posts := turn.posts ++
      (turn.io.connects.filter fun connect => connect.attempt == attempt).map fun connect =>
        .connectCompleted connect (.error .operationAborted) }

def closeConnectingSocket (turn : Turn) : Turn :=
  match turn.io.connectingSocket with
  | none => turn
  | some attempt =>
      let turn := turn.closeSocket attempt
      { turn with io := { turn.io with connectingSocket := none } }

def closePeer (pendingRequestErrorCode : ErrorCode) (turn : Turn) : Turn :=
  match turn.io.peer with
  | none => turn
  | some attempt =>
      let turn := (turn.request (·.completeAll pendingRequestErrorCode)).post
        (.peer attempt (.close false))
      { turn with io := { turn.io with peer := none } }

section

variable (scope : NotificationScope)

/-- The handler posted by `connect()`. -/
def onConnect (token : Nat) (endpoint : Endpoint) (turn : Turn) : Turn :=
  if !scope.isCurrent token || turn.io.connectingSocket.isSome || turn.io.peer.isSome then turn
  else
    let attempt := turn.io.nextAttempt + 1
    let turn := { turn with io := { turn.io with nextAttempt := attempt } }
    match endpoint with
    | .failed errorCode => turn.enqueue (.notify token (.connectFailed attempt errorCode))
    | .constructed =>
        { turn with
          io := { turn.io with
            connectingSocket := some attempt
            connects := turn.io.connects ++ [⟨attempt, token⟩] } }

/-- The handler of `async_connect`. -/
def onConnectCompleted (connect : Connect) (result : ConnectResult) (turn : Turn) : Turn :=
  if !scope.running || turn.io.connectingSocket != some connect.attempt then
    turn.closeSocket connect.attempt
  else
    match result with
    | .error errorCode =>
        { turn with io := { turn.io with connectingSocket := none } }
          |>.enqueue (.notify connect.token (.connectFailed connect.attempt errorCode))
    | .socket credentials =>
        turn.enqueue
          (.notify connect.token (.verifyPeer connect.attempt credentials connect.token))

def handleConnectedSocket (attempt : Nat) (credentials : PeerCredentials) (verified : Bool)
    (token : Nat) (turn : Turn) : Turn :=
  if turn.io.connectingSocket != some attempt then turn.closeSocket attempt
  else
    let turn := { turn with io := { turn.io with connectingSocket := none } }
    if !scope.isCurrent token then turn.closeSocket attempt
    else if !verified then
      (turn.closeSocket attempt).enqueue
        (.notify token (.peerVerificationFailed attempt credentials))
    else
      { turn with
        io := { turn.io with
          peer := some attempt
          connections := Function.update turn.io.connections attempt
            (some { peer := {}, token }) } }
        |>.post (.peer attempt .start)
        |>.post (.connected attempt credentials token)

end

/-- Work that the slots have posted, for the current peer only. -/
def ifCurrent (attempt : Nat) (work : Turn → Turn) (turn : Turn) : Turn :=
  if turn.io.peer = some attempt then work turn else turn

/-- The handler posted by the slot for `closed`. -/
def onClosed (attempt token : Nat) (turn : Turn) : Turn :=
  let turn := turn.request (·.completeAll .connectionReset)
  { turn with io := { turn.io with peer := none } }
    |>.enqueue (.notify token (.closed attempt))

/-- `send_request`; the timeout callback captures the token of this moment. -/
def sendRequest (scope : NotificationScope) (call : Nat) (data : Bytes) (turn : Turn) : Turn :=
  match turn.io.peer with
  | none => turn.enqueue (.requestCallback call .notConnected none)
  | some attempt =>
      let requestId := turn.io.requestManager.nextRequestId
      { turn with
        io := { turn.io with
          requestManager := turn.io.requestManager.add none call (some scope.capture) } }
        |>.post (.peer attempt
            (.pushFrame (makeRequestFrame (UInt64.ofNat requestId) data)))
        |>.emit (.requestSent call requestId attempt)

/-- The handler of a request's timer, with the timeout callback of `send_request`. -/
def onRequestTimer (options : CommonOptions) (timer : RequestTimer Nat) (turn : Turn) : Turn :=
  let callback := (turn.io.requestManager.onTimer timer).2
  let turn := turn.request fun manager => (manager.onTimer timer).1
  match callback with
  | none => turn
  | some token =>
      if options.invalidateConnectionOnRequestError then
        match turn.io.peer with
        | none => turn
        | some attempt =>
            (turn.closePeer .connectionReset).enqueue (.notify token (.closed attempt))
      else turn

/-- The handler posted by `invalidate_connection()`. -/
def onInvalidateConnection (token : Nat) (turn : Turn) : Turn :=
  (turn.closeConnectingSocket.closePeer .operationAborted).enqueue
    (.notify token .scheduleReconnect)

/-- Run one I/O handler. -/
def run (options : CommonOptions) (scope : NotificationScope) (endpoint : Endpoint)
    (handler : Handler) (turn : Turn) : Turn :=
  match handler with
  | .connect token => turn.onConnect scope token endpoint
  | .connectCompleted connect result => turn.onConnectCompleted scope connect result
  | .handleConnectedSocket attempt credentials verified token =>
      turn.handleConnectedSocket scope attempt credentials verified token
  | .stop => turn.closeConnectingSocket.closePeer .operationAborted
  | .invalidateConnection token => turn.onInvalidateConnection token
  | .peer attempt handler => turn.runPeer options attempt handler
  | .connected attempt credentials token =>
      turn.ifCurrent attempt (·.enqueue (.notify token (.connected attempt credentials)))
  | .received attempt buffer token =>
      turn.ifCurrent attempt (·.enqueue (.notify token (.received attempt buffer)))
  | .requestReceived attempt requestId buffer token =>
      turn.ifCurrent attempt
        (·.enqueue (.notify token (.requestReceived attempt requestId buffer)))
  | .responseReceived attempt requestId buffer =>
      turn.ifCurrent attempt (·.request (·.complete requestId.toNat .success (some buffer)))
  | .errorOccurred attempt errorCode token =>
      turn.ifCurrent attempt fun turn =>
        (turn.request (·.completeAll errorCode)).enqueue
          (.notify token (.errorOccurred attempt errorCode))
  | .closed attempt token => turn.ifCurrent attempt (·.onClosed attempt token)
  | .send data => turn.toPeer (.pushFrame (makeUserDataFrame data))
  | .respond requestId data => turn.toPeer (.pushFrame (makeResponseFrame requestId data))
  | .request call data => turn.sendRequest scope call data
  | .requestTimer timer => turn.onRequestTimer options timer

end Turn

end UnixDomainStream.Client
