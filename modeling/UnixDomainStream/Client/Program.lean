import UnixDomainStream.Client.Handlers
import UnixDomainStream.Client.Jobs

/-!
# A client in its environment

The client runs on two threads.  The environment makes the public calls and completes the
outstanding operations; a completed operation's handler goes to the end of the I/O queue.
A peer object nobody holds any more ends with the jobs queued for it.
-/

namespace UnixDomainStream.Client

open Library
open Protocol (Bytes)

abbrev State := Configuration Io Dispatcher Handler Job

abbrev Label := ExecutorLabel Endpoint Bool Input

/-- Run one I/O handler. -/
def handle (options : CommonOptions) (dispatcher : Dispatcher) (io : Io) (handler : Handler)
    (endpoint : Endpoint) : Io × Output Handler Job Event :=
  let turn := Turn.run options dispatcher.notificationScope endpoint handler { io }
  (turn.io, { posts := turn.posts, jobs := turn.jobs, events := turn.events })

def Handler.isOf (attempt : Nat) : Handler → Bool
  | .peer other _ => other == attempt
  | _ => false

def Job.isOf (attempt : Nat) : Job → Bool
  | .signal other _ _ => other == attempt
  | _ => false

/-- Nothing holds the peer object. -/
def released (state : State) (attempt : Nat) (connection : Connection) : Bool :=
  state.io.peer != some attempt && !state.handlers.any (Handler.isOf attempt) &&
    connection.peer.idle

/-- Queue a handler from outside. -/
def post (handler : Handler) (state : State) : State :=
  { state with handlers := state.handlers ++ [handler] }

/-- Queue a job from outside. -/
def enqueue (job : Job) (state : State) : State :=
  { state with jobs := state.jobs ++ [job] }

def accept? (state : State) : Input → Option (State × List Event)
  | .asyncStart => some (enqueue .start state, [])
  | .asyncStop => some (enqueue .stop state, [])
  | .asyncInvalidateConnection => some (enqueue .invalidateConnection state, [])
  | .asyncSend data => some (post (.send data) state, [])
  | .asyncRespond requestId data => some (post (.respond requestId data) state, [])
  | .asyncRequest call data => some (post (.request call data) state, [.requestIssued call])
  | .connectCompletes attempt result =>
      match state.io.connects.find? fun connect => connect.attempt == attempt with
      | none => none
      | some connect =>
          if result = .error .operationAborted ∨ result = .error .success then none
          else some (post (.connectCompleted connect result)
            { state with
              io := { state.io with
                connects := state.io.connects.filter fun other => other.attempt != attempt } },
            [])
  | .peerCompletes attempt completion =>
      match state.io.connections attempt with
      | none => none
      | some connection =>
          (connection.peer.complete? completion).map fun (peer, handler) =>
            (post (.peer attempt handler)
              { state with
                io := { state.io with
                  connections := Function.update state.io.connections attempt
                    (some { connection with peer }) } }, [])
  | .requestExpires requestId =>
      (state.io.requestManager.expire? requestId).map fun (requestManager, timer) =>
        (post (.requestTimer timer) { state with io := { state.io with requestManager } }, [])
  | .destroy attempt =>
      match state.io.connections attempt with
      | none => none
      | some connection =>
          if released state attempt connection then
            some ({ state with
              io := { state.io with
                connections := Function.update state.io.connections attempt none }
              jobs := state.jobs.filter fun job => !job.isOf attempt }, [])
          else none

/-- The inputs that are accepted, one by one. -/
inductive Accepts (state : State) : Input → List Event → State → Prop where
  | asyncStart : Accepts state .asyncStart [] (enqueue .start state)
  | asyncStop : Accepts state .asyncStop [] (enqueue .stop state)
  | asyncInvalidateConnection :
      Accepts state .asyncInvalidateConnection [] (enqueue .invalidateConnection state)
  | asyncSend (data : Bytes) : Accepts state (.asyncSend data) [] (post (.send data) state)
  | asyncRespond (requestId : UInt64) (data : Bytes) :
      Accepts state (.asyncRespond requestId data) [] (post (.respond requestId data) state)
  | asyncRequest (call : Nat) (data : Bytes) :
      Accepts state (.asyncRequest call data) [.requestIssued call]
        (post (.request call data) state)
  | connectCompletes {connect : Connect} {result : ConnectResult}
      (outstanding : connect ∈ state.io.connects)
      (genuine : result ≠ .error .operationAborted ∧ result ≠ .error .success) :
      Accepts state (.connectCompletes connect.attempt result) []
        (post (.connectCompleted connect result)
          { state with
            io := { state.io with
              connects := state.io.connects.filter fun other =>
                other.attempt != connect.attempt } })
  | peerCompletes {attempt : Nat} {connection : Connection} {completion : PeerCompletion}
      {peer : Peer} {handler : PeerHandler} (alive : state.io.connections attempt = some connection)
      (completes : connection.peer.complete? completion = some (peer, handler)) :
      Accepts state (.peerCompletes attempt completion) []
        (post (.peer attempt handler)
          { state with
            io := { state.io with
              connections := Function.update state.io.connections attempt
                (some { connection with peer }) } })
  | requestExpires {requestId : Nat} {requestManager : RequestManager Nat Nat}
      {timer : RequestTimer Nat}
      (expires : state.io.requestManager.expire? requestId = some (requestManager, timer)) :
      Accepts state (.requestExpires requestId) []
        (post (.requestTimer timer) { state with io := { state.io with requestManager } })
  | destroy {attempt : Nat} {connection : Connection}
      (alive : state.io.connections attempt = some connection)
      (released : released state attempt connection = true) :
      Accepts state (.destroy attempt) []
        { state with
          io := { state.io with
            connections := Function.update state.io.connections attempt none }
          jobs := state.jobs.filter fun job => !job.isOf attempt }

theorem accepts_of_eq_some {state state' : State} {input : Input} {events : List Event}
    (accepted : accept? state input = some (state', events)) :
    Accepts state input events state' := by
  cases input with
  | asyncStart =>
      cases accepted
      exact .asyncStart
  | asyncStop =>
      cases accepted
      exact .asyncStop
  | asyncInvalidateConnection =>
      cases accepted
      exact .asyncInvalidateConnection
  | asyncSend data =>
      cases accepted
      exact .asyncSend data
  | asyncRespond requestId data =>
      cases accepted
      exact .asyncRespond requestId data
  | asyncRequest call data =>
      cases accepted
      exact .asyncRequest call data
  | connectCompletes attempt result =>
      simp only [accept?] at accepted
      split at accepted
      · cases accepted
      case h_2 connect found =>
        split at accepted
        · cases accepted
        case isFalse genuine =>
          cases accepted
          have same : connect.attempt = attempt := by simpa using List.find?_some found
          subst same
          exact .connectCompletes (List.mem_of_find?_eq_some found) (not_or.mp genuine)
  | peerCompletes attempt completion =>
      simp only [accept?] at accepted
      split at accepted
      · cases accepted
      case h_2 connection alive =>
        obtain ⟨⟨peer, handler⟩, completes, same⟩ := Option.map_eq_some_iff.mp accepted
        cases same
        exact .peerCompletes alive completes
  | requestExpires requestId =>
      obtain ⟨⟨requestManager, timer⟩, expires, same⟩ := Option.map_eq_some_iff.mp accepted
      cases same
      exact .requestExpires expires
  | destroy attempt =>
      simp only [accept?] at accepted
      split at accepted
      · cases accepted
      case h_2 connection alive =>
        split at accepted
        case isTrue free =>
          cases accepted
          exact .destroy alive free
        · cases accepted

def program (options : CommonOptions) :
    Program Io Dispatcher Handler Job Endpoint Bool Input Event where
  handle := handle options
  perform := perform
  accept? := accept?

def system (options : CommonOptions) : System State Label Event := (program options).system

/-- A client just constructed. -/
def initial : State where
  io := {}
  dispatcher := {}

end UnixDomainStream.Client
