import UnixDomainStream.Server.Handlers
import UnixDomainStream.Server.Jobs

/-!
# A server in its environment

The server runs on two threads.  The environment makes the public calls and
completes the outstanding operations; a completed operation's handler goes to
the end of the I/O queue.  A peer object nobody holds any more ends with the
jobs queued for it.
-/

namespace UnixDomainStream.Server

open Library
open Protocol (Bytes)

abbrev State := Configuration Io Dispatcher Handler Job

abbrev Label := ExecutorLabel BindOutcome Bool Input

/-- Run one I/O handler. -/
def handle (options : CommonOptions) (dispatcher : Dispatcher) (io : Io) (handler : Handler)
    (outcome : BindOutcome) : Io × Output Handler Job Event :=
  let turn := Turn.run options dispatcher.notificationScope outcome handler { io }
  (turn.io, { posts := turn.posts, jobs := turn.jobs, events := turn.events })

/-- The owner holds the peer. -/
def Io.holds (io : Io) : PeerRef → Bool
  | .accepted id => io.peers.contains id
  | .probe timeout => io.socketPathHealthCheckPeer == some timeout

def Handler.isOf (ref : PeerRef) : Handler → Bool
  | .peer other _ => other == ref
  | _ => false

def Job.isOf (ref : PeerRef) : Job → Bool
  | .signal slots _ => slots.ref == ref
  | _ => false

/-- Nothing holds the peer. -/
def released (state : State) {ref : PeerRef} (connection : Connection ref) : Bool :=
  !state.io.holds ref && !state.handlers.any (Handler.isOf ref) && connection.peer.idle

/-- Queue a handler from outside. -/
def post (handler : Handler) (state : State) : State :=
  { state with handlers := state.handlers ++ [handler] }

/-- Queue a job from outside. -/
def enqueue (job : Job) (state : State) : State :=
  { state with jobs := state.jobs ++ [job] }

def accept? (state : State) : Input → Option (State × List Event)
  | .asyncStart => some (enqueue .start state, [])
  | .asyncStop => some (enqueue .stop state, [])
  | .asyncSend id data => some (post (.send id data) state, [])
  | .asyncRespond id requestId data => some (post (.respond id requestId data) state, [])
  | .asyncRequest call id data =>
      some (post (.request call id data) state, [.requestIssued call])
  | .asyncClosePeer id => some (post (.closePeer id) state, [])
  | .acceptCompletes result =>
      match state.io.accepts with
      | [] => none
      | accept :: rest =>
          if result = .error .operationAborted then none
          else some (post (.accept accept result)
            { state with io := { state.io with accepts := rest } }, [])
  | .peerCompletes ref completion =>
      match state.io.connections ref with
      | none => none
      | some connection =>
          (connection.peer.complete? completion).map fun (peer, handler) =>
            (post (.peer ref handler)
              { state with
                io := { state.io with
                  connections := Function.update state.io.connections ref
                    (some { connection with peer }) } }, [])
  | .requestExpires requestId =>
      (state.io.requestManager.expire? requestId).map fun (requestManager, timer) =>
        (post (.requestTimer timer) { state with io := { state.io with requestManager } }, [])
  | .healthCheckExpires timeout =>
      match state.io.timeoutWaits.find? fun probe => probe.timeout == timeout with
      | none => none
      | some probe =>
          some (post (.healthCheckTimeout probe .success)
            { state with
              io := { state.io with
                timeoutWaits :=
                  state.io.timeoutWaits.filter fun other => other.timeout != timeout } }, [])
  | .healthCheckConnects timeout errorCode =>
      match state.io.connects.find? fun probe => probe.timeout == timeout with
      | none => none
      | some probe =>
          if errorCode = .operationAborted then none
          else some (post (.healthCheckConnect probe errorCode)
            { state with
              io := { state.io with
                connects := state.io.connects.filter fun other => other.timeout != timeout } },
            [])
  | .destroy ref =>
      match state.io.connections ref with
      | none => none
      | some connection =>
          if released state connection then
            some ({ state with
              io := { state.io with
                connections := Function.update state.io.connections ref none }
              jobs := state.jobs.filter fun job => !job.isOf ref }, [])
          else none

/-- The inputs that are accepted, one by one. -/
inductive Accepts (state : State) : Input → List Event → State → Prop where
  | asyncStart : Accepts state .asyncStart [] (enqueue .start state)
  | asyncStop : Accepts state .asyncStop [] (enqueue .stop state)
  | asyncSend (id : Nat) (data : Bytes) :
      Accepts state (.asyncSend id data) [] (post (.send id data) state)
  | asyncRespond (id : Nat) (requestId : UInt64) (data : Bytes) :
      Accepts state (.asyncRespond id requestId data) [] (post (.respond id requestId data) state)
  | asyncRequest (call id : Nat) (data : Bytes) :
      Accepts state (.asyncRequest call id data) [.requestIssued call]
        (post (.request call id data) state)
  | asyncClosePeer (id : Nat) :
      Accepts state (.asyncClosePeer id) [] (post (.closePeer id) state)
  | acceptCompletes {accept : Accept} {rest : List Accept} (result : AcceptResult)
      (outstanding : state.io.accepts = accept :: rest) :
      Accepts state (.acceptCompletes result) []
        (post (.accept accept result) { state with io := { state.io with accepts := rest } })
  | peerCompletes {ref : PeerRef} {connection : Connection ref} {completion : PeerCompletion}
      {peer : Peer} {handler : PeerHandler} (alive : state.io.connections ref = some connection)
      (completes : connection.peer.complete? completion = some (peer, handler)) :
      Accepts state (.peerCompletes ref completion) []
        (post (.peer ref handler)
          { state with
            io := { state.io with
              connections := Function.update state.io.connections ref
                (some { connection with peer }) } })
  | requestExpires {requestId : Nat} {requestManager : RequestManager Nat Nat}
      {timer : RequestTimer Nat}
      (expires : state.io.requestManager.expire? requestId = some (requestManager, timer)) :
      Accepts state (.requestExpires requestId) []
        (post (.requestTimer timer) { state with io := { state.io with requestManager } })
  | healthCheckExpires {probe : Probe} (outstanding : probe ∈ state.io.timeoutWaits) :
      Accepts state (.healthCheckExpires probe.timeout) []
        (post (.healthCheckTimeout probe .success)
          { state with
            io := { state.io with
              timeoutWaits :=
                state.io.timeoutWaits.filter fun other => other.timeout != probe.timeout } })
  | healthCheckConnects {probe : Probe} (errorCode : ErrorCode)
      (outstanding : probe ∈ state.io.connects) :
      Accepts state (.healthCheckConnects probe.timeout errorCode) []
        (post (.healthCheckConnect probe errorCode)
          { state with
            io := { state.io with
              connects :=
                state.io.connects.filter fun other => other.timeout != probe.timeout } })
  | destroy {ref : PeerRef} {connection : Connection ref}
      (alive : state.io.connections ref = some connection)
      (released : released state connection = true) :
      Accepts state (.destroy ref) []
        { state with
          io := { state.io with
            connections := Function.update state.io.connections ref none }
          jobs := state.jobs.filter fun job => !job.isOf ref }

theorem accepts_of_eq_some {state state' : State} {input : Input} {events : List Event}
    (accepted : accept? state input = some (state', events)) :
    Accepts state input events state' := by
  cases input with
  | asyncStart =>
      cases accepted
      exact .asyncStart
  | asyncStop =>
      cases accepted
      exact .asyncStop
  | asyncSend id data =>
      cases accepted
      exact .asyncSend id data
  | asyncRespond id requestId data =>
      cases accepted
      exact .asyncRespond id requestId data
  | asyncRequest call id data =>
      cases accepted
      exact .asyncRequest call id data
  | asyncClosePeer id =>
      cases accepted
      exact .asyncClosePeer id
  | acceptCompletes result =>
      simp only [accept?] at accepted
      split at accepted
      · cases accepted
      case h_2 outstanding =>
        split at accepted
        · cases accepted
        · cases accepted
          exact .acceptCompletes result outstanding
  | peerCompletes ref completion =>
      simp only [accept?] at accepted
      split at accepted
      · cases accepted
      case h_2 connection alive =>
        obtain ⟨⟨peer, handler⟩, completes, same⟩ := Option.map_eq_some_iff.mp accepted
        cases same
        exact .peerCompletes alive completes
  | requestExpires requestId =>
      obtain ⟨⟨requestManager, timer⟩, expires, same⟩ := Option.map_eq_some_iff.mp accepted
      cases same
      exact .requestExpires expires
  | healthCheckExpires timeout =>
      simp only [accept?] at accepted
      split at accepted
      · cases accepted
      case h_2 probe found =>
        cases accepted
        have same : probe.timeout = timeout := by simpa using List.find?_some found
        subst same
        exact .healthCheckExpires (List.mem_of_find?_eq_some found)
  | healthCheckConnects timeout errorCode =>
      simp only [accept?] at accepted
      split at accepted
      · cases accepted
      case h_2 probe found =>
        split at accepted
        · cases accepted
        · cases accepted
          have same : probe.timeout = timeout := by simpa using List.find?_some found
          subst same
          exact .healthCheckConnects errorCode (List.mem_of_find?_eq_some found)
  | destroy ref =>
      simp only [accept?] at accepted
      split at accepted
      · cases accepted
      case h_2 connection alive =>
        split at accepted
        case isTrue free =>
          cases accepted
          exact .destroy alive free
        · cases accepted

def program (options : CommonOptions) :
    Program Io Dispatcher Handler Job BindOutcome Bool Input Event where
  handle := handle options
  perform := perform
  accept? := accept?

def system (options : CommonOptions) : System State Label Event := (program options).system

/-- A server just constructed. -/
def initial : State where
  io := {}
  dispatcher := {}

end UnixDomainStream.Server
