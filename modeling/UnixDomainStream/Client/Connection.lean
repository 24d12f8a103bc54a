import UnixDomainStream.Library.Appends
import UnixDomainStream.PeerTurn
import UnixDomainStream.Client.Pieces

/-!
# One connection and its requests

A client connects or is connected, never both, and its pending requests were sent on the
peer it has.  Every response, error and callback in the queues can be traced back to an
event in the log.
-/

namespace UnixDomainStream.Client

open Library
open Protocol (Bytes)

/-- A response was read on the connection of the attempt. -/
def Answered (log : List Event) (attempt : Nat) (requestId : UInt64) (payload : Bytes) : Prop :=
  ∃ body, Event.frameRead attempt body ∈ log ∧ IsResponse body requestId payload

/-- The data is the payload of a response to a request of the call, read on the connection
to which that request was sent. -/
def Earned (log : List Event) (call : Nat) (data : Option Bytes) : Prop :=
  ∃ requestId attempt payload, data = some payload ∧
    Event.requestSent call requestId.toNat attempt ∈ log ∧ Answered log attempt requestId payload

/-- The log that a handler must have behind it. -/
def Handler.Backed (log : List Event) : Handler → Prop
  | .responseReceived attempt requestId buffer => Answered log attempt requestId buffer
  | .errorOccurred _ errorCode _ => errorCode ≠ .success
  | _ => True

def SignalBacked (log : List Event) (attempt : Nat) : Signal → Prop
  | .responseReceived requestId buffer => Answered log attempt requestId buffer
  | .errorOccurred errorCode => errorCode ≠ .success
  | _ => True

def Job.Backed (log : List Event) : Job → Prop
  | .signal attempt _ sent => SignalBacked log attempt sent
  | .requestCallback call errorCode data => errorCode = .success → Earned log call data
  | _ => True

def Event.Backed (log : List Event) : Event → Prop
  | .requestCallback call errorCode data => errorCode = .success → Earned log call data
  | _ => True

/-- The client connects or is connected, and its requests were sent on its peer. -/
structure Io.Single (log : List Event) (io : Io) : Prop where
  exclusive : io.connectingSocket.isSome = true → io.peer = none
  pending : ∀ request ∈ io.requestManager.pendingRequests.entries,
    ∃ attempt, io.peer = some attempt ∧ .requestSent request.2.callback request.1 attempt ∈ log

section

variable {log log' : List Event} (longer : ∀ event ∈ log, event ∈ log')

include longer

theorem Answered.mono {attempt : Nat} {requestId : UInt64} {payload : Bytes}
    (answered : Answered log attempt requestId payload) :
    Answered log' attempt requestId payload := by
  obtain ⟨body, read, response⟩ := answered
  exact ⟨body, longer _ read, response⟩

theorem Earned.mono {call : Nat} {data : Option Bytes} (earned : Earned log call data) :
    Earned log' call data := by
  obtain ⟨requestId, attempt, payload, same, sent, answered⟩ := earned
  exact ⟨requestId, attempt, payload, same, longer _ sent, answered.mono longer⟩

theorem Handler.Backed.mono {handler : Handler} (backed : handler.Backed log) :
    handler.Backed log' := by
  cases handler with
  | responseReceived => exact Answered.mono longer backed
  | _ => exact backed

theorem Job.Backed.mono {job : Job} (backed : job.Backed log) : job.Backed log' := by
  cases job with
  | signal attempt token sent =>
      cases sent with
      | responseReceived => exact Answered.mono longer backed
      | _ => exact backed
  | requestCallback => exact fun succeeded => Earned.mono longer (backed succeeded)
  | _ => trivial

theorem Event.Backed.mono {event : Event} (backed : event.Backed log) : event.Backed log' := by
  cases event with
  | requestCallback => exact fun succeeded => Earned.mono longer (backed succeeded)
  | _ => trivial

theorem Io.Single.mono {io : Io} (single : io.Single log) : io.Single log' := by
  refine ⟨single.exclusive, fun request pending => ?_⟩
  obtain ⟨attempt, current, sent⟩ := single.pending request pending
  exact ⟨attempt, current, longer _ sent⟩

end

/-! ## Handlers -/

namespace Turn

/-- A handler in progress, with a log that holds all it records. -/
structure Backed (log : List Event) (turn : Turn) : Prop where
  io : turn.io.Single log
  posts : ∀ handler ∈ turn.posts, handler.Backed log
  jobs : ∀ job ∈ turn.jobs, job.Backed log
  events : ∀ event ∈ turn.events, event.Backed log

variable {log : List Event} {turn after : Turn}

namespace Backed

theorem post (backed : turn.Backed log) {handler : Handler} (traced : handler.Backed log) :
    (turn.post handler).Backed log := by
  refine ⟨backed.io, ?_, backed.jobs, backed.events⟩
  refine (Appends.single ?_ _).forall_mem backed.posts
  exact traced

theorem enqueue (backed : turn.Backed log) {job : Job} (traced : job.Backed log) :
    (turn.enqueue job).Backed log := by
  refine ⟨backed.io, backed.posts, ?_, backed.events⟩
  refine (Appends.single ?_ _).forall_mem backed.jobs
  exact traced

/-- Completing requests, where a success must have been earned. -/
theorem request (backed : turn.Backed log)
    {call : RequestManager Nat Nat → RequestTurn Nat Nat}
    {address : Nat × PendingRequest Nat → Bool} {errorCode : ErrorCode} {data : Option Bytes}
    (completes : call turn.io.requestManager =
      turn.io.requestManager.completeWhere address errorCode data)
    (earned : errorCode = .success →
      ∀ request ∈ turn.io.requestManager.pendingRequests.entries, address request = true →
        Earned log request.2.callback data) :
    (turn.request call).Backed log := by
  refine ⟨⟨backed.io.exclusive, fun request member => ?_⟩, ?_, ?_, backed.events⟩
  · simp only [Turn.request, completes, RequestManager.completeWhere, Ledger.mem_remove] at member
    exact backed.io.pending request member.1
  · refine (Appends.map ?_ _).forall_mem backed.posts
    intro timer _
    trivial
  · refine (Appends.map ?_ _).forall_mem backed.jobs
    intro completion member succeeded
    simp only [completes, RequestManager.completeWhere, List.mem_map, Ledger.mem_addressed]
      at member
    obtain ⟨request, ⟨open', addressed⟩, rfl⟩ := member
    exact earned succeeded request open' addressed

theorem closeSocket (backed : turn.Backed log) (attempt : Nat) :
    (turn.closeSocket attempt).Backed log := by
  refine ⟨⟨backed.io.exclusive, backed.io.pending⟩, ?_, backed.jobs, backed.events⟩
  refine (Appends.map ?_ _).forall_mem backed.posts
  intro connect _
  trivial

/-- The peer goes once none of its requests is pending. -/
theorem dropPeer (backed : turn.Backed log)
    (completed : turn.io.requestManager.pendingRequests.entries = []) :
    Turn.Backed log { turn with io := { turn.io with peer := none } } := by
  refine ⟨⟨fun _ => rfl, fun request pending => ?_⟩, backed.posts, backed.jobs, backed.events⟩
  simp [completed] at pending

/-- The client had no peer, so nothing was pending when its socket became one. -/
theorem connect (backed : turn.Backed log) {attempt : Nat}
    (connecting : turn.io.connectingSocket = some attempt)
    (connections : Nat → Option Connection) :
    Turn.Backed log { turn with io := { turn.io with
      connectingSocket := none, peer := some attempt, connections } } := by
  refine ⟨⟨nofun, fun request pending => ?_⟩, backed.posts, backed.jobs, backed.events⟩
  obtain ⟨other, current, _⟩ := backed.io.pending request pending
  rw [backed.io.exclusive (by simp [connecting])] at current
  cases current

end Backed

/-- What a peer reports comes from the frame it has read. -/
theorem signals_backed {handler : PeerHandler} {peer : Peer} {result : PeerTurn}
    (shape : PeerTurn.Shape handler peer result) {attempt : Nat}
    (recorded : ∀ event ∈ framesRead attempt handler, event ∈ log) :
    ∀ sent ∈ result.signals, SignalBacked log attempt sent := by
  obtain ⟨message, error, source, genuine, signals⟩ := shape.signals
  intro sent member
  rw [signals] at member
  simp only [readySignals, closedSignals, List.mem_append, Option.mem_toList, List.mem_map]
    at member
  rcases member with ready | reported | failed | closed
  · split at ready
    · rw [List.mem_singleton.mp ready]
      trivial
    · cases ready
  · cases sent with
    | responseReceived requestId buffer =>
        obtain ⟨body, rfl, response⟩ := PeerTurn.messageOf_response (source _ reported)
        exact ⟨body, recorded _ List.mem_cons_self, response⟩
    | errorOccurred errorCode => exact absurd (source _ reported) (by simp [PeerTurn.messageOf])
    | _ => trivial
  · obtain ⟨errorCode, occurred, rfl⟩ := failed
    rintro rfl
    exact genuine occurred
  · split at closed
    · rw [List.mem_singleton.mp closed]
      trivial
    · cases closed

theorem framesRead_backed (attempt : Nat) (handler : PeerHandler) :
    ∀ event ∈ framesRead attempt handler, event.Backed log := by
  unfold framesRead
  split
  · intro event member
    rw [List.mem_singleton.mp member]
    trivial
  · nofun

theorem QuietPiece.backed {handler : Handler} (piece : QuietPiece handler turn after)
    (backed : turn.Backed log) : after.Backed log := by
  cases piece with
  | fail completes error => exact backed.request completes fun succeeded => absurd succeeded error
  | closeSocket attempt => exact backed.closeSocket attempt
  | disconnect =>
      exact ⟨⟨nofun, backed.io.pending⟩, backed.posts, backed.jobs, backed.events⟩
  | push attempt frame => exact backed.post trivial
  | @release attempt _ _ completed =>
      have closed : (turn.post (.peer attempt (.close false))).Backed log := backed.post trivial
      exact closed.dropPeer completed
  | dropPeer _ completed => exact backed.dropPeer completed

/-- A response completes the request that was sent with its id on this connection. -/
theorem Piece.backed {options : CommonOptions} {scope : NotificationScope} {handler : Handler}
    {start : Turn} (piece : Piece options scope handler start turn after)
    (traced : handler.Backed log) (recorded : ∀ event ∈ after.events, event ∈ log)
    (backed : turn.Backed log) : after.Backed log := by
  cases piece with
  | quiet piece => exact piece.backed backed
  | notify told => exact backed.enqueue trivial
  | @respond _ attempt requestId buffer own current =>
      subst own
      refine backed.request rfl fun _ request pending addressed => ?_
      obtain ⟨owner, owned, sent⟩ := backed.io.pending request pending
      rw [current, Option.some.injEq] at owned
      rw [beq_iff_eq.mp addressed, ← owned] at sent
      exact ⟨requestId, attempt, buffer, rfl, sent, traced⟩
  | report own =>
      subst own
      exact backed.request rfl fun succeeded => absurd succeeded traced
  | refuse own => exact backed.enqueue nofun
  | @send call attempt data own current =>
      refine ⟨⟨backed.io.exclusive, fun request pending => ?_⟩, ?_, backed.jobs, ?_⟩
      · rcases List.mem_append.mp pending with old | new
        · exact backed.io.pending request old
        · rw [List.mem_singleton.mp new]
          exact ⟨attempt, current, recorded _ (List.mem_append_right _ List.mem_cons_self)⟩
      · refine (Appends.single ?_ _).forall_mem backed.posts
        trivial
      · refine (Appends.single ?_ _).forall_mem backed.events
        trivial
  | @speak attempt spoken connection result own alive ran =>
      have shape := PeerTurn.run_shape options spoken connection.peer
      have reported := signals_backed (ran ▸ shape) fun event member =>
        recorded event (List.mem_append_right _ member)
      refine ⟨⟨backed.io.exclusive, backed.io.pending⟩, ?_, ?_, ?_⟩
      · refine (Appends.map ?_ _).forall_mem backed.posts
        intro posted _
        trivial
      · refine (Appends.map ?_ _).forall_mem backed.jobs
        exact reported
      · exact (Appends.append (framesRead_backed attempt spoken) _).forall_mem backed.events
  | connectFailed errorCode own =>
      refine Backed.enqueue ?_ trivial
      exact ⟨⟨backed.io.exclusive, backed.io.pending⟩, backed.posts, backed.jobs, backed.events⟩
  | connect own current unconnecting unconnected =>
      exact ⟨⟨fun _ => unconnected, backed.io.pending⟩, backed.posts, backed.jobs,
        backed.events⟩
  | establish own current connecting =>
      refine Backed.post (Backed.post (backed.connect connecting _) ?_) ?_ <;> trivial

theorem Backed.run (backed : turn.Backed log) (options : CommonOptions)
    (scope : NotificationScope) (endpoint : Endpoint) {handler : Handler}
    (traced : handler.Backed log)
    (recorded : ∀ event ∈ (turn.run options scope endpoint handler).events, event ∈ log) :
    (turn.run options scope endpoint handler).Backed log := by
  -- What is recorded at the end was recorded all along.
  refine (run_pieces options scope endpoint handler turn).keeps
    (fun after => (∀ event ∈ after.events, event ∈ log) → after.Backed log) ?_
    (fun _ => backed) recorded
  intro before after piece kept recorded
  exact piece.backed traced recorded
    (kept fun event listed => recorded event (piece.events.subset listed))

/-! ## Giving up a connection -/

/-- A piece of a handler that fails requests, and gives the peer up only with all of them. -/
structure GivesUp (before after : Turn) : Prop where
  connectingSocket : after.io.connectingSocket = before.io.connectingSocket ∨
    after.io.connectingSocket = none
  peer : after.io.peer = before.io.peer ∨
    after.io.peer = none ∧ after.io.requestManager.pendingRequests.entries = []
  fewer : ∀ request ∈ after.io.requestManager.pendingRequests.entries,
    request ∈ before.io.requestManager.pendingRequests.entries
  failed : ∀ request ∈ before.io.requestManager.pendingRequests.entries,
    request ∈ after.io.requestManager.pendingRequests.entries ∨
      ∃ errorCode, errorCode ≠ .success ∧
        .requestCallback request.2.callback errorCode none ∈ after.jobs
  jobs : ∀ job ∈ before.jobs, job ∈ after.jobs

namespace GivesUp

theorem refl (turn : Turn) : GivesUp turn turn :=
  ⟨.inl rfl, .inl rfl, fun _ pending => pending, fun _ pending => .inl pending,
    fun _ queued => queued⟩

theorem trans {first second third : Turn} (left : GivesUp first second)
    (right : GivesUp second third) : GivesUp first third where
  connectingSocket := by
    rcases right.connectingSocket with same | gone
    · rw [same]
      exact left.connectingSocket
    · exact .inr gone
  peer := by
    rcases right.peer with same | gone
    · rw [same]
      refine left.peer.imp_right fun ⟨gone, empty⟩ => ⟨gone, ?_⟩
      refine List.eq_nil_iff_forall_not_mem.mpr fun request pending => ?_
      have earlier := right.fewer request pending
      rw [empty] at earlier
      cases earlier
    · exact .inr gone
  fewer request pending := left.fewer request (right.fewer request pending)
  failed request pending := by
    rcases left.failed request pending with still | ⟨errorCode, error, called⟩
    · exact right.failed request still
    · exact .inr ⟨errorCode, error, right.jobs _ called⟩
  jobs job queued := right.jobs job (left.jobs job queued)

/-- The pending requests and the queued jobs stay as they are. -/
theorem of_same
    (connectingSocket : after.io.connectingSocket = turn.io.connectingSocket ∨
      after.io.connectingSocket = none)
    (peer : after.io.peer = turn.io.peer ∨
      after.io.peer = none ∧ after.io.requestManager.pendingRequests.entries = [])
    (requestManager : after.io.requestManager = turn.io.requestManager)
    (jobs : after.jobs = turn.jobs) : GivesUp turn after :=
  ⟨connectingSocket, peer, fun _ pending => requestManager ▸ pending,
    fun _ pending => .inl (requestManager ▸ pending), fun _ queued => jobs ▸ queued⟩

theorem enqueue (gives : GivesUp turn after) (job : Job) : GivesUp turn (after.enqueue job) :=
  gives.trans ⟨.inl rfl, .inl rfl, fun _ pending => pending, fun _ pending => .inl pending,
    fun _ queued => List.mem_append_left _ queued⟩

end GivesUp

/-- Requests are failed, and then the peer may go with the last of them. -/
theorem request_givesUp {call : RequestManager Nat Nat → RequestTurn Nat Nat}
    {address : Nat × PendingRequest Nat → Bool} {errorCode : ErrorCode}
    (completes : call turn.io.requestManager =
      turn.io.requestManager.completeWhere address errorCode none)
    (error : errorCode ≠ .success) : GivesUp turn (turn.request call) where
  connectingSocket := .inl rfl
  peer := .inl rfl
  fewer request pending := by
    simp only [Turn.request, completes, RequestManager.completeWhere, Ledger.mem_remove] at pending
    exact pending.1
  failed request pending := by
    cases addressed : address request with
    | false =>
        left
        simp [Turn.request, completes, RequestManager.completeWhere, pending, addressed]
    | true =>
        right
        refine ⟨errorCode, error, List.mem_append_right _ ?_⟩
        rw [completes, RequestManager.completeWhere, List.map_map]
        exact List.mem_map.mpr ⟨request, Ledger.mem_addressed.mpr ⟨pending, addressed⟩, rfl⟩
  jobs job queued := List.mem_append_left _ queued

theorem QuietPiece.givesUp {handler : Handler} (piece : QuietPiece handler turn after) :
    GivesUp turn after := by
  cases piece with
  | fail completes error => exact request_givesUp completes error
  | closeSocket attempt => exact .of_same (.inl rfl) (.inl rfl) rfl rfl
  | disconnect => exact .of_same (.inr rfl) (.inl rfl) rfl rfl
  | push attempt frame => exact .of_same (.inl rfl) (.inl rfl) rfl rfl
  | release _ completed => exact .of_same (.inl rfl) (.inr ⟨rfl, completed⟩) rfl rfl
  | dropPeer _ completed => exact .of_same (.inl rfl) (.inr ⟨rfl, completed⟩) rfl rfl

/-- A handler that may give the peer up does nothing else. -/
theorem Piece.givesUp {options : CommonOptions} {scope : NotificationScope} {handler : Handler}
    {start : Turn} (drops : handler.drops = true)
    (piece : Piece options scope handler start turn after) : GivesUp turn after := by
  cases piece with
  | quiet piece => exact piece.givesUp
  | notify told => exact (GivesUp.refl turn).enqueue _
  | _ => simp_all [Handler.drops]

/-- What a handler may do to the connection it finds. -/
structure Holds (before after : Turn) : Prop where
  connectingSocket : before.io.connectingSocket ≠ none →
    after.io.connectingSocket = before.io.connectingSocket ∨ after.io.connectingSocket = none
  peer : ∀ attempt, before.io.peer = some attempt →
    after.io.peer = some attempt ∨ GivesUp before after

theorem GivesUp.holds {before after : Turn} (gives : GivesUp before after) :
    Holds before after :=
  ⟨fun _ => gives.connectingSocket, fun _ _ => .inr gives⟩

/-- The peer is there still, and no other socket is in the place of the connecting one. -/
structure Stays (before after : Turn) : Prop where
  connectingSocket : before.io.connectingSocket ≠ none →
    after.io.connectingSocket = before.io.connectingSocket ∨ after.io.connectingSocket = none
  peer : ∀ attempt, before.io.peer = some attempt → after.io.peer = some attempt

theorem Stays.same {start before after : Turn} (stays : Stays start before)
    (connectingSocket : after.io.connectingSocket = before.io.connectingSocket)
    (peer : after.io.peer = before.io.peer) : Stays start after := by
  refine ⟨?_, ?_⟩
  · rw [connectingSocket]
    exact stays.connectingSocket
  · rw [peer]
    exact stays.peer

/-- A connected socket becomes the peer only of a client that has none. -/
theorem Piece.stays {options : CommonOptions} {scope : NotificationScope} {handler : Handler}
    {start before after : Turn} (lasts : handler.drops = false)
    (exclusive : start.io.connectingSocket.isSome = true → start.io.peer = none)
    (piece : Piece options scope handler start before after) (stays : Stays start before) :
    Stays start after := by
  cases piece with
  | quiet piece =>
      cases piece with
      | disconnect => exact ⟨fun _ => .inr rfl, stays.peer⟩
      | release drops => simp [drops] at lasts
      | dropPeer drops => simp [drops] at lasts
      | _ => exact stays.same rfl rfl
  | connect own current unconnecting =>
      exact ⟨fun taken => absurd unconnecting taken, fun _ current => current⟩
  | establish own current connecting =>
      have free := exclusive (by simp [connecting])
      exact ⟨fun _ => .inr rfl, fun _ current => nomatch free.symm.trans current⟩
  | _ => exact stays.same rfl rfl

/-- No handler puts another connection in the place of the one it finds. -/
theorem run_holds (exclusive : turn.io.connectingSocket.isSome = true → turn.io.peer = none)
    (options : CommonOptions) (scope : NotificationScope) (endpoint : Endpoint)
    (handler : Handler) : Holds turn (turn.run options scope endpoint handler) := by
  have pieces := run_pieces options scope endpoint handler turn
  cases drops : handler.drops with
  | true => exact (pieces.effect GivesUp.refl GivesUp.trans (Piece.givesUp drops)).holds
  | false =>
      have stays := pieces.keeps (Stays turn) (Piece.stays drops exclusive)
        ⟨fun _ => .inl rfl, fun _ current => current⟩
      exact ⟨stays.connectingSocket, fun attempt current => .inl (stays.peer attempt current)⟩

end Turn

/-! ## Whole runs -/

/-- What a job leaves behind is traced to the same log as the job. -/
structure EffectBacked (log : List Event) (effect : Effect) : Prop where
  posts : ∀ handler ∈ effect.posts, handler.Backed log
  next : ∀ job ∈ effect.next, job.Backed log
  jobs : ∀ job ∈ effect.jobs, job.Backed log
  delayed : ∀ job ∈ effect.delayed, job.Backed log
  events : ∀ event ∈ effect.events, event.Backed log

theorem perform_backed {log : List Event} {job : Job} (backed : job.Backed log)
    (dispatcher : Dispatcher) (verdict : Bool) :
    EffectBacked log (perform dispatcher job verdict).2 := by
  cases job with
  | signal attempt token sent =>
      cases sent <;> constructor <;> simp [perform, slot, Handler.Backed] <;> exact backed
  | notify token notice =>
      simp only [perform]
      split
      · cases notice <;> constructor <;> simp [notify, Job.Backed, Handler.Backed, Event.Backed]
      · constructor <;> simp
  | requestCallback call errorCode data =>
      constructor <;> simp [perform]
      exact backed
  | scheduleReconnect =>
      constructor <;> simp [perform, Job.Backed]
  | reconnect generation =>
      constructor <;> simp [perform]
      rintro _ _ _ rfl
      trivial
  | _ => constructor <;> simp [perform, Job.Backed, Handler.Backed]

/-- The client holds one connection, and what is queued and logged is traced to the log. -/
structure State.Backed (log : List Event) (state : State) : Prop where
  io : state.io.Single log
  queued : state.All (Handler.Backed log) (Job.Backed log)
  events : ∀ event ∈ log, event.Backed log

theorem State.Backed.mono {log log' : List Event} {state : State}
    (longer : ∀ event ∈ log, event ∈ log') (events : ∀ event ∈ log', event.Backed log')
    (backed : state.Backed log) : state.Backed log' :=
  ⟨backed.io.mono longer,
    backed.queued.mono (fun _ traced => Handler.Backed.mono longer traced)
      fun _ traced => Job.Backed.mono longer traced,
    events⟩

/-- What happens outside leaves the connection and the pending requests alone. -/
theorem Accepts.connection {state state' : State} {input : Input} {events : List Event}
    (accepts : Accepts state input events state') :
    state'.io.connectingSocket = state.io.connectingSocket ∧
      state'.io.peer = state.io.peer ∧
      state'.io.requestManager.pendingRequests = state.io.requestManager.pendingRequests := by
  cases accepts with
  | requestExpires expires => exact ⟨rfl, rfl, (RequestManager.expire?_eq_some expires).1⟩
  | _ => exact ⟨rfl, rfl, rfl⟩

theorem accepts_queued {log : List Event} {state state' : State} {input : Input}
    {events : List Event} (queued : state.All (Handler.Backed log) (Job.Backed log))
    (accepts : Accepts state input events state') :
    state'.All (Handler.Backed log) (Job.Backed log) := by
  have posted : ∀ {handler : Handler} (io : Io), handler.Backed log →
      (post handler { state with io }).All (Handler.Backed log) (Job.Backed log) := by
    intro handler io traced
    have same : Configuration.All (Handler.Backed log) (Job.Backed log) { state with io } :=
      ⟨queued.handlers, queued.jobs, queued.delayed⟩
    exact same.posted traced
  have enqueued : ∀ {job : Job}, job.Backed log →
      (enqueue job state).All (Handler.Backed log) (Job.Backed log) := queued.enqueued
  cases accepts with
  | asyncStart => exact enqueued trivial
  | asyncStop => exact enqueued trivial
  | asyncInvalidateConnection => exact enqueued trivial
  | destroy alive released =>
      exact ⟨queued.handlers, fun job member => queued.jobs job (List.mem_of_mem_filter member),
        queued.delayed⟩
  | _ => exact posted _ trivial

theorem accepts_backed {log : List Event} {state state' : State} {input : Input}
    {events : List Event} (backed : state.Backed log)
    (accepts : Accepts state input events state') : state'.Backed (log ++ events) := by
  have longer : ∀ event ∈ log, event ∈ log ++ events :=
    fun event member => List.mem_append_left _ member
  have issued : ∀ event ∈ events, event.Backed (log ++ events) := by
    cases accepts with
    | asyncRequest call data =>
        intro event member
        rw [List.mem_singleton.mp member]
        trivial
    | _ => nofun
  obtain ⟨connecting, current, pending⟩ := accepts.connection
  have single : state'.io.Single log := by
    refine ⟨fun taken => ?_, fun request listed => ?_⟩
    · rw [connecting] at taken
      rw [current]
      exact backed.io.exclusive taken
    · rw [pending] at listed
      rw [current]
      exact backed.io.pending request listed
  refine State.Backed.mono longer ?_ ⟨single, accepts_queued backed.queued accepts, backed.events⟩
  exact (Appends.append issued log).forall_mem fun event member =>
    (backed.events event member).mono longer

/-- Every step keeps the trace. -/
theorem step_backed {options : CommonOptions} {log : List Event} {state state' : State}
    {label : Label} {events : List Event} (backed : state.Backed log)
    (step : (system options).step? state label = some (state', events)) :
    state'.Backed (log ++ events) := by
  cases Program.step_of_eq_some step with
  | @handler handler rest queued endpoint =>
      have longer : ∀ event ∈ log, event ∈ log ++
          (Turn.run options state.dispatcher.notificationScope endpoint handler
            { io := state.io }).events :=
        fun event member => List.mem_append_left _ member
      have all := backed.queued.mono (fun _ traced => Handler.Backed.mono longer traced)
        fun _ traced => Job.Backed.mono longer traced
      have start : Turn.Backed _ { io := state.io } := ⟨backed.io.mono longer, nofun, nofun, nofun⟩
      have turn := start.run options state.dispatcher.notificationScope endpoint
        (all.handlers handler (by simp [queued])) fun event member => List.mem_append_right _ member
      refine ⟨turn.io, all.handled queued turn.posts turn.jobs, ?_⟩
      exact (Appends.append turn.events _).forall_mem fun event member =>
        (backed.events event member).mono longer
  | @job job rest queued verdict =>
      have effect := perform_backed (backed.queued.jobs job (by simp [queued])) state.dispatcher
        verdict
      have longer : ∀ event ∈ log,
          event ∈ log ++ (perform state.dispatcher job verdict).2.events :=
        fun event member => List.mem_append_left _ member
      refine State.Backed.mono longer ?_ ⟨backed.io, ?_, backed.events⟩
      · refine (Appends.append ?_ _).forall_mem fun event member =>
          (backed.events event member).mono longer
        exact fun event member => (effect.events event member).mono longer
      · exact backed.queued.performed queued effect.posts effect.next effect.jobs effect.delayed
  | delayed idle due =>
      rw [List.append_nil]
      exact ⟨backed.io, backed.queued.due due, backed.events⟩
  | input accepted => exact accepts_backed backed (accepts_of_eq_some accepted)

theorem initial_backed : initial.Backed [] :=
  ⟨⟨nofun, nofun⟩, ⟨nofun, nofun, nofun⟩, nofun⟩

/-- In every run, the client holds one connection with the requests sent on it. -/
theorem run_backed {options : CommonOptions} {permitted : State → Label → Prop}
    {log : List Event} {state : State} (run : Run (system options) permitted initial log state) :
    state.Backed log := by
  induction run with
  | refl => exact initial_backed
  | next _ _ step ih => exact step_backed ih step

/-- A step keeps the connection it finds, or gives it up; a peer is given up together with
its requests, which fail. -/
theorem step_holds {options : CommonOptions} {log : List Event} {state state' : State}
    {label : Label} {events : List Event} (backed : state.Backed log)
    (step : (system options).step? state label = some (state', events)) :
    (∀ attempt, state.io.connectingSocket = some attempt →
      state'.io.connectingSocket = some attempt ∨ state'.io.connectingSocket = none) ∧
    ∀ attempt, state.io.peer = some attempt →
      state'.io.peer = some attempt ∨
        state'.io.peer = none ∧ state'.io.requestManager.pendingRequests.entries = [] ∧
          ∃ more, state'.jobs = state.jobs ++ more ∧
            ∀ request ∈ state.io.requestManager.pendingRequests.entries,
              ∃ errorCode, errorCode ≠ .success ∧
                .requestCallback request.2.callback errorCode none ∈ more := by
  cases Program.step_of_eq_some step with
  | @handler handler rest queued endpoint =>
      have holds := @Turn.run_holds { io := state.io } backed.io.exclusive options
        state.dispatcher.notificationScope endpoint handler
      refine ⟨fun attempt taken => ?_, fun attempt current => ?_⟩
      · rw [← taken]
        exact holds.connectingSocket (by simp [taken])
      · rcases holds.peer attempt current with same | gives
        · exact .inl same
        · refine gives.peer.imp (fun same => same.trans current) fun ⟨gone, empty⟩ => ?_
          refine ⟨gone, empty, _, rfl, fun request pending => ?_⟩
          refine (gives.failed request pending).resolve_left fun still => ?_
          rw [empty] at still
          cases still
  | job queued verdict => exact ⟨fun _ taken => .inl taken, fun _ current => .inl current⟩
  | delayed idle due => exact ⟨fun _ taken => .inl taken, fun _ current => .inl current⟩
  | input accepted =>
      obtain ⟨connecting, current, _⟩ := (accepts_of_eq_some accepted).connection
      rw [connecting, current]
      exact ⟨fun _ taken => .inl taken, fun _ current => .inl current⟩

/-- A client has one connection, and its requests belong to it.  It connects or is
connected; no step puts another connection in the place of the one it has; every pending
request was sent on the peer; a peer that is given up takes its requests with it, which
fail at once; and a success carries the payload of a response to that very request, read
on the connection to which the request was sent. -/
theorem one_connection (options : CommonOptions) {log : List Event} {state : State}
    (run : Run (system options) (fun _ _ => True) initial log state) :
    (state.io.connectingSocket = none ∨ state.io.peer = none) ∧
    (∀ label state' events, (system options).step? state label = some (state', events) →
      (∀ attempt, state.io.connectingSocket = some attempt →
        state'.io.connectingSocket = some attempt ∨ state'.io.connectingSocket = none) ∧
      ∀ attempt, state.io.peer = some attempt →
        state'.io.peer = some attempt ∨
          state'.io.peer = none ∧ state'.io.requestManager.pendingRequests.entries = [] ∧
            ∃ more, state'.jobs = state.jobs ++ more ∧
              ∀ request ∈ state.io.requestManager.pendingRequests.entries,
                ∃ errorCode, errorCode ≠ .success ∧
                  .requestCallback request.2.callback errorCode none ∈ more) ∧
    (∀ request ∈ state.io.requestManager.pendingRequests.entries,
      ∃ attempt, state.io.peer = some attempt ∧
        .requestSent request.2.callback request.1 attempt ∈ log) ∧
    ∀ call data, .requestCallback call .success data ∈ log →
      ∃ requestId attempt payload, data = some payload ∧
        .requestSent call requestId.toNat attempt ∈ log ∧
        ∃ body, .frameRead attempt body ∈ log ∧ IsResponse body requestId payload := by
  have backed := run_backed run
  refine ⟨?_, fun _ _ _ step => step_holds backed step, backed.io.pending,
    fun _ _ delivered => backed.events _ delivered rfl⟩
  cases connecting : state.io.connectingSocket with
  | none => exact .inl rfl
  | some attempt => exact .inr (backed.io.exclusive (by simp [connecting]))

/-- A client that is stopped with a request pending, before the handler that closes its
peer. -/
theorem one_connection_stop :
    ∃ log state, Run (system {}) (fun _ _ => True) initial log state ∧
      state.handlers = [.stop] ∧ .requestSent 7 1 1 ∈ log ∧
      ∀ label state' events, (system {}).step? state label = some (state', events) →
        state'.io.peer = some 1 ∨
          state'.io.peer = none ∧ state'.io.requestManager.pendingRequests.entries = [] ∧
            ∃ more, state'.jobs = state.jobs ++ more ∧
              ∀ request ∈ state.io.requestManager.pendingRequests.entries,
                ∃ errorCode, errorCode ≠ .success ∧
                  .requestCallback request.2.callback errorCode none ∈ more := by
  let credentials : PeerCredentials := ⟨none, none, none⟩
  let handlers (count : Nat) : List Label := List.replicate count (.handler .constructed)
  let jobs (count : Nat) : List Label := List.replicate count (.job true)
  let labels : List Label :=
    [.input .asyncStart] ++ jobs 2 ++ handlers 1 ++
      [.input (.connectCompletes 1 (.socket credentials))] ++ handlers 1 ++ jobs 1 ++
      handlers 3 ++ [.input (.asyncRequest 7 [1])] ++ handlers 2 ++
      [.input .asyncStop] ++ jobs 6
  let log : List Event :=
    [.verifyPeer 1 credentials true, .requestIssued 7, .requestSent 7 1 1,
      .connected 1 credentials]
  let view (state : State) := (state.handlers, state.io.peer)
  have computed : (Run.steps? (system {}) (fun _ _ => True) initial labels).map
      (fun result => (view result.1, result.2)) = some (([.stop], some 1), log) := by
    decide +kernel
  obtain ⟨state, run, viewed⟩ := Run.of_view computed
  have queued : state.handlers = [.stop] := congrArg Prod.fst viewed
  have connected : state.io.peer = some 1 := congrArg Prod.snd viewed
  have sent : Event.requestSent 7 1 1 ∈ log := by decide
  exact ⟨log, state, run, queued, sent, fun label state' events step =>
    ((one_connection {} run).2.1 label state' events step).2 1 connected⟩

end UnixDomainStream.Client
