import UnixDomainStream.Server.State

/-!
# The I/O handlers of a server
-/

namespace UnixDomainStream.Server

open Protocol

/-- `enqueue_peer_closed`, as the completion given to `async_close`; the peer of a
probe is closed without one. -/
def PeerRef.peerClosed : PeerRef → List Job
  | .accepted id => [.peerClosed id]
  | .probe _ => []

/-- The frame body that a handler of a peer has received. -/
def PeerRef.framesRead (ref : PeerRef) : PeerHandler → List Event
  | .readBody .success body => [.frameRead ref body]
  | _ => []

/-- A handler in progress. -/
structure Turn where
  io : Io
  posts : List Handler := []
  jobs : List Job := []
  events : List Event := []

namespace Turn

def post (handler : Handler) (turn : Turn) : Turn :=
  { turn with posts := turn.posts ++ [handler] }

def enqueue (job : Job) (turn : Turn) : Turn :=
  { turn with jobs := turn.jobs ++ [job] }

def emit (event : Event) (turn : Turn) : Turn :=
  { turn with events := turn.events ++ [event] }

/-! ## Requests and peers -/

/-- A call to the request manager. -/
def request (call : RequestManager Nat Nat → RequestTurn Nat Nat) (turn : Turn) : Turn :=
  let result := call turn.io.requestManager
  { turn with
    io := { turn.io with requestManager := result.manager }
    posts := turn.posts ++ result.posted.map .requestTimer
    jobs := turn.jobs ++ result.completions.map fun completion =>
      .requestCallback completion.callback completion.errorCode completion.data }

/-- Run a handler of a peer.  Its signals carry the slots' captures; the
completion given to `async_close` enqueues `peer_closed`. -/
def runPeer (options : CommonOptions) (ref : PeerRef) (handler : PeerHandler) (turn : Turn) :
    Turn :=
  match turn.io.connections ref with
  | none => turn
  | some connection =>
      let result := PeerTurn.run options handler { peer := connection.peer }
      { turn with
        io := { turn.io with
          connections := Function.update turn.io.connections ref
            (some { connection with peer := result.peer }) }
        posts := turn.posts ++ result.posted.map (.peer ref)
        jobs := turn.jobs ++ result.signals.map (.signal connection.slots) ++
          if result.completed then ref.peerClosed else []
        events := turn.events ++ ref.framesRead handler }

/-- Post to a peer found under its id. -/
def toPeer (id : Nat) (handler : PeerHandler) (turn : Turn) : Turn :=
  if id ∈ turn.io.peers then turn.post (.peer (.accepted id) handler) else turn

def erasePeer (id : Nat) (turn : Turn) : Turn :=
  { turn with io := { turn.io with peers := turn.io.peers.filter fun key => key != id } }

def closePeer (id : Nat) (turn : Turn) : Turn :=
  if id ∈ turn.io.peers then
    turn.request (·.completePeer id .operationAborted)
      |>.post (.peer (.accepted id) (.close true))
      |>.erasePeer id
  else turn

def closeAllPeers (turn : Turn) : Turn :=
  let turn := turn.request (·.completeAll .operationAborted)
  { turn with
    io := { turn.io with peers := [] }
    posts := turn.posts ++ turn.io.peers.map fun id => .peer (.accepted id) (.close false) }

def sendRequest (call id : Nat) (data : Bytes) (turn : Turn) : Turn :=
  let requestId := turn.io.requestManager.nextRequestId
  { turn with
    io := { turn.io with
      requestManager := turn.io.requestManager.add (some id) call (some id) } }
    |>.post (.peer (.accepted id) (.pushFrame (makeRequestFrame (UInt64.ofNat requestId) data)))
    |>.emit (.requestSent call requestId id)

/-- The handler of `async_request`. -/
def onRequest (call id : Nat) (data : Bytes) (turn : Turn) : Turn :=
  if id ∈ turn.io.peers then turn.sendRequest call id data
  else turn.enqueue (.requestCallback call .notConnected none)

/-- The handler of a request's timer, with the timeout callback of `send_request`. -/
def onRequestTimer (options : CommonOptions) (timer : RequestTimer Nat) (turn : Turn) : Turn :=
  let callback := (turn.io.requestManager.onTimer timer).2
  let turn := turn.request fun manager => (manager.onTimer timer).1
  match callback with
  | none => turn
  | some id => if options.invalidateConnectionOnRequestError then turn.closePeer id else turn

def onResponseReceived (id : Nat) (requestId : UInt64) (buffer : Bytes) (turn : Turn) : Turn :=
  if id ∈ turn.io.peers then
    turn.request (·.completeFrom id requestId.toNat .success (some buffer))
  else turn

def onClosed (id : Nat) (turn : Turn) : Turn :=
  (turn.request (·.completePeer id .connectionReset)).erasePeer id

/-! ## Health-check probes -/

/-- `timeout->cancel()` -/
def cancelTimeout (timeout : Nat) (turn : Turn) : Turn :=
  { turn with
    io := { turn.io with
      timeoutWaits := turn.io.timeoutWaits.filter fun probe => probe.timeout != timeout }
    posts := turn.posts ++
      (turn.io.timeoutWaits.filter fun probe => probe.timeout == timeout).map fun probe =>
        .healthCheckTimeout probe .operationAborted }

/-- `socket->close()` on the socket of a probe. -/
def closeProbeSocket (timeout : Nat) (turn : Turn) : Turn :=
  { turn with
    io := { turn.io with
      connects := turn.io.connects.filter fun probe => probe.timeout != timeout
      closedSockets := timeout :: turn.io.closedSockets }
    posts := turn.posts ++
      (turn.io.connects.filter fun probe => probe.timeout == timeout).map fun probe =>
        .healthCheckConnect probe .operationAborted }

/-- The first half of `close_socket_path_health_check_peer`. -/
def resetTimeout (turn : Turn) : Turn :=
  match turn.io.socketPathHealthCheckTimeout with
  | none => turn
  | some timeout =>
      let turn := turn.cancelTimeout timeout
      { turn with io := { turn.io with socketPathHealthCheckTimeout := none } }

/-- The second half of `close_socket_path_health_check_peer`. -/
def resetProbePeer (turn : Turn) : Turn :=
  match turn.io.socketPathHealthCheckPeer with
  | none => turn
  | some timeout =>
      let turn := turn.post (.peer (.probe timeout) (.close false))
      { turn with io := { turn.io with socketPathHealthCheckPeer := none } }

def closeSocketPathHealthCheckPeer (turn : Turn) : Turn := turn.resetTimeout.resetProbePeer

/-! ## The acceptor -/

def closeAcceptor (turn : Turn) : Turn :=
  { turn with
    io := { turn.io with acceptor := none, accepts := [] }
    posts := turn.posts ++
      turn.io.accepts.map fun accept => .accept accept (.error .operationAborted) }

section

variable (scope : NotificationScope)

def handleBindFailed (attempt : Nat) (errorCode : ErrorCode) (token : Nat) (turn : Turn) : Turn :=
  turn.closeAcceptor.enqueue (.notify token (.bindFailed attempt errorCode))

def accept (token : Nat) (turn : Turn) : Turn :=
  match turn.io.acceptor with
  | none => turn
  | some attempt =>
      if scope.isCurrent token then
        { turn with io := { turn.io with accepts := turn.io.accepts ++ [⟨attempt, token⟩] } }
      else turn

/-- The handler posted by `bind()`. -/
def onBind (token : Nat) (outcome : BindOutcome) (turn : Turn) : Turn :=
  if !scope.isCurrent token || turn.io.acceptor.isSome then turn
  else
    let attempt := turn.io.nextAttempt + 1
    let turn := { turn with io := { turn.io with nextAttempt := attempt } }
    match outcome with
    | .failed .endpoint errorCode => turn.handleBindFailed attempt errorCode token
    | .failed _ errorCode =>
        { turn with io := { turn.io with acceptor := some attempt } }
          |>.handleBindFailed attempt errorCode token
    | .succeeded =>
        { turn with io := { turn.io with acceptor := some attempt } }
          |>.enqueue (.notify token (.bound attempt))
          |>.accept scope token

def handleAcceptedSocket (credentials : PeerCredentials) (token : Nat) (turn : Turn) : Turn :=
  if !scope.isCurrent token then turn
  else
    let id := turn.io.nextPeerId + 1
    { turn with
      io := { turn.io with
        nextPeerId := id
        peers := turn.io.peers ++ [id]
        connections := Function.update turn.io.connections (.accepted id)
          (some { peer := {}, slots := .accepted id credentials token, named := rfl }) } }
      |>.emit (.accepted id credentials)
      |>.post (.peer (.accepted id) .start)
      |>.accept scope token

/-- The handler of `async_accept`. -/
def onAccept (accept : Accept) (result : AcceptResult) (turn : Turn) : Turn :=
  if !scope.isCurrent accept.token then turn
  else
    match result with
    | .error errorCode =>
        if errorCode = .operationAborted then turn
        else turn.closeAcceptor.enqueue (.notify accept.token (.closed accept.attempt))
    | .socket credentials => turn.handleAcceptedSocket scope credentials accept.token

/-! ## The health check of the socket path -/

def isCurrentProbe (probe : Probe) (turn : Turn) : Bool :=
  scope.isCurrent probe.token &&
    turn.io.socketPathHealthCheckTimeout == some probe.timeout

def handleSocketPathHealthCheckFailed (probe : Probe) (turn : Turn) : Turn :=
  if !turn.isCurrentProbe scope probe then turn
  else
    turn.closeSocketPathHealthCheckPeer.closeAcceptor
      |>.enqueue (.notify probe.token (.closed probe.attempt))

/-- The handler posted by `socket_path_health_check()`. -/
def onSocketPathHealthCheck (token : Nat) (outcome : BindOutcome) (turn : Turn) : Turn :=
  match turn.io.acceptor with
  | none => turn
  | some attempt =>
      if !scope.isCurrent token || turn.io.socketPathHealthCheckTimeout.isSome then turn
      else
        let probe : Probe := ⟨turn.io.nextTimeout + 1, token, attempt⟩
        let turn :=
          { turn with
            io := { turn.io with
              nextTimeout := probe.timeout
              socketPathHealthCheckTimeout := some probe.timeout } }
        match outcome with
        | .failed .endpoint _ => turn.handleSocketPathHealthCheckFailed scope probe
        | _ =>
            { turn with
              io := { turn.io with
                timeoutWaits := turn.io.timeoutWaits ++ [probe]
                connects := turn.io.connects ++ [probe] } }

def onHealthCheckTimeout (probe : Probe) (errorCode : ErrorCode) (turn : Turn) : Turn :=
  let turn := turn.closeProbeSocket probe.timeout
  if errorCode = .success then turn.handleSocketPathHealthCheckFailed scope probe else turn

def onHealthCheckConnect (probe : Probe) (errorCode : ErrorCode) (turn : Turn) : Turn :=
  if !turn.isCurrentProbe scope probe then turn.cancelTimeout probe.timeout
  else if errorCode ≠ .success then
    (turn.cancelTimeout probe.timeout).handleSocketPathHealthCheckFailed scope probe
  else
    let isOpen := decide (probe.timeout ∉ turn.io.closedSockets)
    { turn with
      io := { turn.io with
        socketPathHealthCheckPeer := some probe.timeout
        connections := Function.update turn.io.connections (.probe probe.timeout)
          (some { peer := { isOpen }, slots := .healthCheck probe, named := rfl }) } }
      |>.post (.peer (.probe probe.timeout) .start)
      |>.post (.peer (.probe probe.timeout) (.pushFrame makeHealthCheckFrame))

def onHealthCheckResponse (probe : Probe) (turn : Turn) : Turn :=
  if turn.isCurrentProbe scope probe then turn.closeSocketPathHealthCheckPeer else turn

end

/-- Run one I/O handler. -/
def run (options : CommonOptions) (scope : NotificationScope) (outcome : BindOutcome)
    (handler : Handler) (turn : Turn) : Turn :=
  match handler with
  | .bind token => turn.onBind scope token outcome
  | .stop => turn.closeAcceptor.closeAllPeers.closeSocketPathHealthCheckPeer
  | .accept accept result => turn.onAccept scope accept result
  | .peer ref handler => turn.runPeer options ref handler
  | .send id data => turn.toPeer id (.pushFrame (makeUserDataFrame data))
  | .respond id requestId data => turn.toPeer id (.pushFrame (makeResponseFrame requestId data))
  | .request call id data => turn.onRequest call id data
  | .closePeer id => turn.closePeer id
  | .requestTimer timer => turn.onRequestTimer options timer
  | .responseReceived id requestId buffer => turn.onResponseReceived id requestId buffer
  | .errorOccurred id errorCode => turn.request (·.completePeer id errorCode)
  | .closed id => turn.onClosed id
  | .socketPathHealthCheck token => turn.onSocketPathHealthCheck scope token outcome
  | .healthCheckTimeout probe errorCode => turn.onHealthCheckTimeout scope probe errorCode
  | .healthCheckConnect probe errorCode => turn.onHealthCheckConnect scope probe errorCode
  | .healthCheckResponse probe => turn.onHealthCheckResponse scope probe
  | .healthCheckFailed probe _ => turn.handleSocketPathHealthCheckFailed scope probe

end Turn

end UnixDomainStream.Server
