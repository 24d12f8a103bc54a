import UnixDomainStream.Server.Pieces

/-!
# Where queued work comes from

Every response, error and notification in the queues can be traced back to an
event in the log: the frame that was read, the request that was sent, the
connection that was accepted.
-/

namespace UnixDomainStream.Server

open Library
open Protocol

/-- A response was read on the connection accepted as `id`. -/
def Answered (log : List Event) (id : Nat) (requestId : UInt64) (payload : Bytes) : Prop :=
  ∃ body, Event.frameRead (.accepted id) body ∈ log ∧ IsResponse body requestId payload

/-- The data is the payload of a response to a request of the call, read on the
connection to which that request was sent. -/
def Earned (log : List Event) (call : Nat) (data : Option Bytes) : Prop :=
  ∃ requestId id payload, data = some payload ∧
    Event.requestSent call requestId.toNat id ∈ log ∧ Answered log id requestId payload

/-- The log that a handler or job must have behind it. -/
def Handler.Backed (log : List Event) : Handler → Prop
  | .responseReceived id requestId buffer => Answered log id requestId buffer
  | .errorOccurred _ errorCode => errorCode ≠ .success
  | _ => True

def SignalBacked (log : List Event) (id : Nat) : Signal → Prop
  | .responseReceived requestId buffer => Answered log id requestId buffer
  | .errorOccurred errorCode => errorCode ≠ .success
  | _ => True

def Job.Backed (log : List Event) : Job → Prop
  | .signal (.accepted id credentials _) sent =>
      Event.accepted id credentials ∈ log ∧ SignalBacked log id sent
  | .notify _ (.ready id credentials) => Event.accepted id credentials ∈ log
  | .requestCallback call errorCode data => errorCode = .success → Earned log call data
  | _ => True

def Event.Backed (log : List Event) : Event → Prop
  | .verifyPeer id credentials _ => Event.accepted id credentials ∈ log
  | .peerConnected id credentials => Event.accepted id credentials ∈ log
  | .requestCallback call errorCode data => errorCode = .success → Earned log call data
  | _ => True

structure Io.Backed (log : List Event) (io : Io) : Prop where
  connections : ∀ id connection, io.connections (.accepted id) = some connection →
    ∃ credentials token, connection.slots = .accepted id credentials token ∧
      Event.accepted id credentials ∈ log
  pending : ∀ request ∈ io.requestManager.pendingRequests.entries, ∃ id,
    request.2.peerIdValue = some id ∧ Event.requestSent request.2.callback request.1 id ∈ log

section

variable {log log' : List Event} (longer : ∀ event ∈ log, event ∈ log')

include longer

theorem Answered.mono {id : Nat} {requestId : UInt64} {payload : Bytes}
    (answered : Answered log id requestId payload) : Answered log' id requestId payload := by
  obtain ⟨body, read, response⟩ := answered
  exact ⟨body, longer _ read, response⟩

theorem Earned.mono {call : Nat} {data : Option Bytes} (earned : Earned log call data) :
    Earned log' call data := by
  obtain ⟨requestId, id, payload, same, sent, answered⟩ := earned
  exact ⟨requestId, id, payload, same, longer _ sent, answered.mono longer⟩

theorem Handler.Backed.mono {handler : Handler} (backed : handler.Backed log) :
    handler.Backed log' := by
  cases handler with
  | responseReceived => exact Answered.mono longer backed
  | _ => exact backed

theorem SignalBacked.mono {id : Nat} {signal : Signal} (backed : SignalBacked log id signal) :
    SignalBacked log' id signal := by
  cases signal with
  | responseReceived => exact Answered.mono longer backed
  | _ => exact backed

theorem Job.Backed.mono {job : Job} (backed : job.Backed log) : job.Backed log' := by
  cases job with
  | signal slots signal =>
      cases slots with
      | accepted => exact ⟨longer _ backed.1, SignalBacked.mono longer backed.2⟩
      | healthCheck => trivial
  | notify token notice =>
      cases notice with
      | ready => exact longer _ backed
      | _ => trivial
  | requestCallback => exact fun succeeded => Earned.mono longer (backed succeeded)
  | _ => trivial

theorem Event.Backed.mono {event : Event} (backed : event.Backed log) : event.Backed log' := by
  cases event with
  | verifyPeer => exact longer _ backed
  | peerConnected => exact longer _ backed
  | requestCallback => exact fun succeeded => Earned.mono longer (backed succeeded)
  | _ => trivial

theorem Io.Backed.mono {io : Io} (backed : io.Backed log) : io.Backed log' := by
  refine ⟨fun id connection alive => ?_, fun request member => ?_⟩
  · obtain ⟨credentials, token, slots, accepted⟩ := backed.connections id connection alive
    exact ⟨credentials, token, slots, longer _ accepted⟩
  · obtain ⟨id, owner, sent⟩ := backed.pending request member
    exact ⟨id, owner, longer _ sent⟩

end

theorem Handler.backed_of_isInternal {log : List Event} {handler : Handler}
    (internal : handler.isInternal = true) : handler.Backed log := by
  cases handler <;> trivial

theorem Job.backed_of_isInternal {log : List Event} {job : Job}
    (internal : job.isInternal = true) : job.Backed log := by
  cases job with
  | signal slots signal => cases slots <;> trivial
  | notify token notice => cases notice <;> trivial
  | _ => trivial

theorem Event.backed_of_isInternal {log : List Event} {event : Event}
    (internal : event.isInternal = true) : event.Backed log := by
  cases event <;> trivial

namespace Turn

/-- A handler in progress: all it has produced is traced to the log. -/
structure Backed (log : List Event) (turn : Turn) : Prop where
  io : turn.io.Backed (log ++ turn.events)
  posts : ∀ handler ∈ turn.posts, handler.Backed (log ++ turn.events)
  jobs : ∀ job ∈ turn.jobs, job.Backed (log ++ turn.events)
  events : ∀ event ∈ turn.events, event.Backed (log ++ turn.events)

variable {log : List Event} {before after : Turn}

theorem Internal.backed (internal : Internal before after) (backed : before.Backed log) :
    after.Backed log := by
  obtain ⟨more, sent, ofMore⟩ := internal.events
  have longer : ∀ event ∈ log ++ before.events, event ∈ log ++ after.events := by
    intro event member
    rw [sent, ← List.append_assoc]
    exact List.mem_append_left _ member
  refine ⟨⟨fun id connection alive => ?_, fun request member => ?_⟩, ?_, ?_, ?_⟩
  · rw [internal.connections id] at alive
    exact (backed.io.mono longer).connections id connection alive
  · rw [internal.requestManager] at member
    exact (backed.io.mono longer).pending request member
  · exact (internal.posts.mono fun _ => Handler.backed_of_isInternal).forall_mem
      fun handler member => (backed.posts handler member).mono longer
  · exact (internal.jobs.mono fun _ => Job.backed_of_isInternal).forall_mem
      fun job member => (backed.jobs job member).mono longer
  · exact (internal.events.mono fun _ => Event.backed_of_isInternal).forall_mem
      fun event member => (backed.events event member).mono longer

/-- Completing requests, where a success must have been earned. -/
theorem Backed.request {turn : Turn} (backed : turn.Backed log)
    {call : RequestManager Nat Nat → RequestTurn Nat Nat}
    {address : Nat × PendingRequest Nat → Bool} {errorCode : ErrorCode} {data : Option Bytes}
    (completes : call turn.io.requestManager =
      turn.io.requestManager.completeWhere address errorCode data)
    (earned : errorCode = .success →
      ∀ request ∈ turn.io.requestManager.pendingRequests.entries, address request = true →
        Earned (log ++ turn.events) request.2.callback data) :
    (turn.request call).Backed log := by
  refine ⟨⟨backed.io.connections, fun request member => ?_⟩, ?_, ?_, backed.events⟩
  · simp only [Turn.request, completes, RequestManager.completeWhere, Ledger.mem_remove] at member
    exact backed.io.pending request member.1
  · refine (Appends.map ?_ _).forall_mem backed.posts
    intro timer _
    trivial
  · refine (Appends.map ?_ _).forall_mem backed.jobs
    intro completion member succeeded
    simp only [completes, RequestManager.completeWhere, List.mem_map, Ledger.mem_addressed]
      at member
    obtain ⟨request, ⟨open', addressed⟩, rfl⟩ := member
    exact earned succeeded request open' addressed

theorem Backed.post {turn : Turn} (backed : turn.Backed log) {handler : Handler}
    (traced : handler.Backed (log ++ turn.events)) : (turn.post handler).Backed log := by
  refine ⟨backed.io, ?_, backed.jobs, backed.events⟩
  refine (Appends.single ?_ _).forall_mem backed.posts
  exact traced

theorem Backed.enqueue {turn : Turn} (backed : turn.Backed log) {job : Job}
    (traced : job.Backed (log ++ turn.events)) : (turn.enqueue job).Backed log := by
  refine ⟨backed.io, backed.posts, ?_, backed.events⟩
  refine (Appends.single ?_ _).forall_mem backed.jobs
  exact traced

theorem Backed.erasePeer {turn : Turn} (backed : turn.Backed log) (id : Nat) :
    (turn.erasePeer id).Backed log :=
  ⟨⟨backed.io.connections, backed.io.pending⟩, backed.posts, backed.jobs, backed.events⟩

/-- A request is sent on the connection of its peer. -/
theorem Backed.sendRequest {turn : Turn} (backed : turn.Backed log) (call id : Nat)
    (data : Bytes) : (turn.sendRequest call id data).Backed log := by
  have longer : ∀ event ∈ log ++ turn.events,
      event ∈ log ++ (turn.sendRequest call id data).events := by
    intro event member
    rw [Turn.sendRequest, emit, ← List.append_assoc]
    exact List.mem_append_left _ member
  refine ⟨⟨(backed.io.mono longer).connections, fun request member => ?_⟩, ?_, ?_, ?_⟩
  · rcases List.mem_append.mp member with old | new
    · exact (backed.io.mono longer).pending request old
    · rw [List.mem_singleton.mp new]
      refine ⟨id, rfl, ?_⟩
      simp [Turn.sendRequest, emit, Turn.post, RequestManager.nextRequestId]
  · refine (Appends.single ?_ _).forall_mem
      fun handler member => (backed.posts handler member).mono longer
    trivial
  · exact fun job member => (backed.jobs job member).mono longer
  · refine (Appends.single ?_ _).forall_mem
      fun event member => (backed.events event member).mono longer
    trivial

/-- What an accepted peer reports comes from the frame it has read. -/
theorem signals_backed {handler : PeerHandler} {peer : Peer} {turn : PeerTurn}
    (shape : PeerTurn.Shape handler peer turn) (log : List Event) (id : Nat) :
    ∀ signal ∈ turn.signals,
      SignalBacked (log ++ PeerRef.framesRead (.accepted id) handler) id signal := by
  obtain ⟨message, error, source, genuine, sent⟩ := shape.signals
  intro signal member
  rw [sent] at member
  simp only [readySignals, closedSignals, List.mem_append, Option.mem_toList, List.mem_map]
    at member
  rcases member with ready | reported | failed | closed
  · split at ready
    · rw [List.mem_singleton.mp ready]
      trivial
    · cases ready
  · cases signal with
    | responseReceived requestId buffer =>
        obtain ⟨body, rfl, response⟩ := PeerTurn.messageOf_response (source _ reported)
        exact ⟨body, List.mem_append_right _ List.mem_cons_self, response⟩
    | errorOccurred errorCode => exact absurd (source _ reported) (by simp [PeerTurn.messageOf])
    | _ => trivial
  · obtain ⟨errorCode, occurred, rfl⟩ := failed
    rintro rfl
    exact genuine occurred
  · split at closed
    · rw [List.mem_singleton.mp closed]
      trivial
    · cases closed

theorem Backed.runPeer {turn : Turn} (backed : turn.Backed log) (options : CommonOptions)
    (id : Nat) (handler : PeerHandler) :
    (turn.runPeer options (.accepted id) handler).Backed log := by
  cases alive : turn.io.connections (.accepted id) with
  | none => simpa [Turn.runPeer, alive] using backed
  | some connection =>
      obtain ⟨credentials, token, slots, accepted⟩ := backed.io.connections id connection alive
      have shape := PeerTurn.run_shape options handler connection.peer
      simp only [Turn.runPeer, alive]
      have longer : ∀ event ∈ log ++ turn.events,
          event ∈ log ++ (turn.events ++ PeerRef.framesRead (.accepted id) handler) := by
        intro event member
        rw [← List.append_assoc]
        exact List.mem_append_left _ member
      have reported := signals_backed shape (log ++ turn.events) id
      rw [List.append_assoc] at reported
      refine ⟨⟨?_, (backed.io.mono longer).pending⟩, ?_, ?_, ?_⟩
      · intro other found listed
        dsimp only at listed ⊢
        by_cases same : other = id
        · subst same
          rw [Function.update_self] at listed
          cases listed
          exact ⟨credentials, token, slots, longer _ accepted⟩
        · rw [Function.update_of_ne (by simpa using same)] at listed
          exact (backed.io.mono longer).connections other found listed
      · refine (Appends.map ?_ _).forall_mem
          fun handler member => (backed.posts handler member).mono longer
        intro posted _
        trivial
      · refine ((Appends.map ?_ _).trans (Appends.append ?_ _)).forall_mem
          fun job member => (backed.jobs job member).mono longer
        · intro signal member
          dsimp only
          rw [slots]
          exact ⟨longer _ accepted, reported signal member⟩
        · intro job member
          split at member
          · rw [List.mem_singleton.mp member]
            trivial
          · cases member
      · refine (Appends.append ?_ _).forall_mem
          fun event member => (backed.events event member).mono longer
        intro event member
        unfold PeerRef.framesRead at member
        split at member
        · rw [List.mem_singleton.mp member]
          trivial
        · cases member

/-- A new connection is recorded with its credentials. -/
theorem Backed.create {turn : Turn} (backed : turn.Backed log) (id : Nat)
    (credentials : PeerCredentials) (token : Nat) {io : Io}
    (requestManager : io.requestManager = turn.io.requestManager)
    (connections : io.connections = Function.update turn.io.connections (.accepted id)
      (some { peer := {}, slots := .accepted id credentials token, named := rfl })) :
    Turn.Backed log (({ turn with io } : Turn).emit (.accepted id credentials)) := by
  have longer : ∀ event ∈ log ++ turn.events,
      event ∈ log ++ (turn.events ++ [.accepted id credentials]) := by
    intro event member
    rw [← List.append_assoc]
    exact List.mem_append_left _ member
  refine ⟨⟨?_, ?_⟩, ?_, ?_, ?_⟩
  · intro other connection listed
    dsimp only [emit] at listed ⊢
    rw [connections] at listed
    by_cases same : other = id
    · subst same
      rw [Function.update_self] at listed
      cases listed
      exact ⟨credentials, token, rfl, by simp⟩
    · rw [Function.update_of_ne (by simpa using same)] at listed
      exact (backed.io.mono longer).connections other connection listed
  · intro request pending
    dsimp only [emit] at pending
    rw [requestManager] at pending
    exact (backed.io.mono longer).pending request pending
  · exact fun handler member => (backed.posts handler member).mono longer
  · exact fun job member => (backed.jobs job member).mono longer
  · refine (Appends.single ?_ _).forall_mem
      fun event member => (backed.events event member).mono longer
    trivial

/-- A response completes a request of its own peer. -/
theorem PeerPiece.backed {options : CommonOptions} {scope : NotificationScope}
    {handler : Handler} {start : Turn}
    (piece : PeerPiece options scope handler start before after)
    (traced : handler.Backed (log ++ before.events)) (backed : before.Backed log) :
    after.Backed log := by
  cases piece with
  | complete completes earned =>
      refine backed.request completes fun success request pending addressed => ?_
      cases earned success with
      | @response id requestId buffer own same matched =>
          subst own same
          obtain ⟨owner, owned, sent⟩ := backed.io.pending request pending
          obtain ⟨numbered, named⟩ := matched request addressed
          obtain rfl : owner = id := Option.some.inj (owned.symm.trans named)
          rw [numbered] at sent
          exact ⟨requestId, owner, buffer, rfl, sent, traced⟩
      | error own =>
          subst own
          exact absurd rfl traced
  | push id frame => exact backed.post trivial
  | release own listed completed =>
      refine Backed.erasePeer (backed.post ?_) _
      trivial
  | erase own completed => exact backed.erasePeer _
  | dismiss own completed =>
      refine ⟨⟨backed.io.connections, backed.io.pending⟩, ?_, backed.jobs, backed.events⟩
      refine (Appends.map ?_ _).forall_mem backed.posts
      intro id _
      trivial
  | send own listed => exact backed.sendRequest _ _ _
  | refuse own =>
      refine backed.enqueue ?_
      rintro ⟨⟩
  | speak own => exact backed.runPeer options _ _
  | create own current =>
      refine Backed.post ?_ trivial
      exact backed.create _ _ _ rfl rfl

/-- Every handler keeps the trace. -/
theorem Backed.run {turn : Turn} (backed : turn.Backed log) {handler : Handler}
    (traced : handler.Backed (log ++ turn.events)) (options : CommonOptions)
    (scope : NotificationScope) (outcome : BindOutcome) :
    (turn.run options scope outcome handler).Backed log := by
  have pieces := run_pieces options scope outcome handler turn
  suffices kept : (turn.run options scope outcome handler).Backed log ∧
      handler.Backed (log ++ (turn.run options scope outcome handler).events) from kept.1
  refine pieces.keeps (fun turn => turn.Backed log ∧ handler.Backed (log ++ turn.events)) ?_
    ⟨backed, traced⟩
  rintro before after piece ⟨backed, traced⟩
  have longer : before.events <+: after.events := by
    rcases piece.sort with internal | piece
    · obtain ⟨more, recorded, _⟩ := internal.events
      exact ⟨more, recorded.symm⟩
    · exact piece.events
  refine ⟨?_, traced.mono ?_⟩
  · rcases piece.sort with internal | piece
    · exact internal.backed backed
    · exact piece.backed traced backed
  · exact fun event listed => ((List.prefix_append_right_inj log).mpr longer).subset listed

end Turn

/-! ## Whole runs -/

/-- All work in the queues and all events of the log are traced to the log. -/
structure State.Backed (log : List Event) (state : State) : Prop where
  io : state.io.Backed log
  handlers : ∀ handler ∈ state.handlers, handler.Backed log
  jobs : ∀ job ∈ state.jobs, job.Backed log
  delayed : ∀ job ∈ state.delayed, job.Backed log
  events : ∀ event ∈ log, event.Backed log

/-- What a job leaves behind is traced to the same log as the job. -/
structure EffectBacked (log : List Event) (effect : Effect) : Prop where
  posts : ∀ handler ∈ effect.posts, handler.Backed log
  jobs : ∀ job ∈ effect.jobs, job.Backed log
  next : ∀ job ∈ effect.next, job.Backed log
  delayed : ∀ job ∈ effect.delayed, job.Backed log
  events : ∀ event ∈ effect.events, event.Backed log

theorem slot_backed {log : List Event} {slots : Slots} {signal : Signal}
    (backed : (Job.signal slots signal).Backed log) (scope : NotificationScope) :
    EffectBacked log (slot scope slots signal) := by
  cases slots with
  | accepted id credentials token =>
      obtain ⟨accepted, source⟩ := backed
      cases signal <;> constructor <;> simp [slot, acceptedSlot, Job.Backed, Handler.Backed] <;>
        assumption
  | healthCheck probe =>
      simp only [slot, healthCheckSlot]
      split
      · cases signal <;> constructor <;> simp [Handler.Backed]
      · constructor <;> simp

theorem SessionEffect.backed {log : List Event} {effect : Effect}
    (session : SessionEffect effect) : EffectBacked log effect := by
  have handlers : ∀ handler : Handler, handler.isSession = true → handler.Backed log := by
    intro handler session
    cases handler <;> trivial
  have jobs : ∀ job : Job, job.isSession = true → job.Backed log := by
    intro job session
    cases job <;> trivial
  exact ⟨fun handler member => handlers handler (session.posts handler member),
    fun job member => jobs job (session.jobs job member),
    fun job member => jobs job (session.next job member),
    fun job member => jobs job (session.delayed job member), by simp [session.events]⟩

theorem perform_backed {log : List Event} {job : Job} (backed : job.Backed log)
    (dispatcher : Dispatcher) (verdict : Bool) :
    EffectBacked log (perform dispatcher job verdict).2 := by
  have exposed : ∀ (id : Nat) (event : Event), event.Backed log →
      EffectBacked log (ifExposed dispatcher id event).2 := by
    intro id event traced
    unfold ifExposed
    split <;> constructor <;> simp [traced]
  cases job with
  | signal slots signal => exact slot_backed backed dispatcher.notificationScope
  | notify token notice =>
      simp only [perform]
      split
      · cases notice with
        | ready id credentials =>
            cases verdict <;> constructor <;>
              simp [notify, Handler.Backed, Event.Backed] <;> exact backed
        | _ => constructor <;> simp [notify, Job.Backed, Event.Backed]
      · constructor <;> simp
  | requestCallback call errorCode data =>
      constructor <;> simp [perform]
      exact backed
  | enqueuePeerErrorOccurred id errorCode => constructor <;> simp [perform, Job.Backed]
  | enqueuePeerClosed id => constructor <;> simp [perform, Job.Backed]
  | received id buffer => exact exposed id _ trivial
  | requestReceived id requestId buffer => exact exposed id _ trivial
  | peerErrorOccurred id errorCode => exact exposed id _ trivial
  | peerClosed id =>
      simp only [perform]
      split <;> constructor <;> simp [Event.Backed]
  | _ => exact (perform_session rfl dispatcher verdict).backed

theorem State.Backed.mono {log log' : List Event} {state : State}
    (longer : ∀ event ∈ log, event ∈ log') (events : ∀ event ∈ log', event.Backed log')
    (backed : state.Backed log) : state.Backed log' :=
  ⟨backed.io.mono longer, fun handler member => (backed.handlers handler member).mono longer,
    fun job member => (backed.jobs job member).mono longer,
    fun job member => (backed.delayed job member).mono longer, events⟩

theorem State.Backed.post {log : List Event} {state : State} (backed : state.Backed log)
    {handler : Handler} (traced : handler.Backed log) : (post handler state).Backed log := by
  refine ⟨backed.io, ?_, backed.jobs, backed.delayed, backed.events⟩
  refine (Appends.single ?_ _).forall_mem backed.handlers
  exact traced

theorem State.Backed.enqueue {log : List Event} {state : State} (backed : state.Backed log)
    {job : Job} (traced : job.Backed log) : (enqueue job state).Backed log := by
  refine ⟨backed.io, backed.handlers, ?_, backed.delayed, backed.events⟩
  refine (Appends.single ?_ _).forall_mem backed.jobs
  exact traced

theorem State.Backed.withIo {log : List Event} {state : State} (backed : state.Backed log)
    {io : Io} (traced : io.Backed log) : State.Backed log { state with io } :=
  ⟨traced, backed.handlers, backed.jobs, backed.delayed, backed.events⟩

theorem accepts_backed {log : List Event} {state state' : State} {input : Input}
    {events : List Event} (backed : state.Backed log)
    (accepts : Accepts state input events state') : state'.Backed (log ++ events) := by
  cases accepts with
  | asyncRequest call id data =>
      have longer : ∀ event ∈ log, event ∈ log ++ [Event.requestIssued call] :=
        fun event member => List.mem_append_left _ member
      refine State.Backed.post (backed.mono longer ?_) trivial
      refine (Appends.single ?_ _).forall_mem
        fun event member => (backed.events event member).mono longer
      trivial
  | asyncStart =>
      rw [List.append_nil]
      refine backed.enqueue ?_
      trivial
  | asyncStop =>
      rw [List.append_nil]
      refine backed.enqueue ?_
      trivial
  | asyncSend id data =>
      rw [List.append_nil]
      refine backed.post ?_
      trivial
  | asyncRespond id requestId data =>
      rw [List.append_nil]
      refine backed.post ?_
      trivial
  | asyncClosePeer id =>
      rw [List.append_nil]
      refine backed.post ?_
      trivial
  | acceptCompletes result outstanding =>
      rw [List.append_nil]
      refine State.Backed.post (backed.withIo ?_) trivial
      exact ⟨backed.io.connections, backed.io.pending⟩
  | @peerCompletes ref connection completion peer handler alive completes =>
      rw [List.append_nil]
      refine State.Backed.post (backed.withIo ?_) trivial
      refine ⟨fun id found listed => ?_, backed.io.pending⟩
      dsimp only at listed
      by_cases same : PeerRef.accepted id = ref
      · subst same
        rw [Function.update_self] at listed
        cases listed
        exact backed.io.connections id connection alive
      · rw [Function.update_of_ne same] at listed
        exact backed.io.connections id found listed
  | requestExpires expires =>
      rw [List.append_nil]
      refine State.Backed.post (backed.withIo ?_) trivial
      refine ⟨backed.io.connections, ?_⟩
      have kept := (RequestManager.expire?_eq_some expires).1
      dsimp only
      rw [kept]
      exact backed.io.pending
  | healthCheckExpires outstanding =>
      rw [List.append_nil]
      refine State.Backed.post (backed.withIo ?_) trivial
      exact ⟨backed.io.connections, backed.io.pending⟩
  | healthCheckConnects errorCode outstanding =>
      rw [List.append_nil]
      refine State.Backed.post (backed.withIo ?_) trivial
      exact ⟨backed.io.connections, backed.io.pending⟩
  | @destroy ref connection alive released =>
      rw [List.append_nil]
      refine ⟨⟨?_, backed.io.pending⟩, backed.handlers, ?_, backed.delayed, backed.events⟩
      · intro id found listed
        dsimp only at listed
        by_cases same : PeerRef.accepted id = ref
        · subst same
          simp at listed
        · rw [Function.update_of_ne same] at listed
          exact backed.io.connections id found listed
      · exact fun job member => backed.jobs job (List.mem_of_mem_filter member)

/-- Every step keeps the trace. -/
theorem step_backed {options : CommonOptions} {log : List Event} {state state' : State}
    {label : Label} {events : List Event} (backed : state.Backed log)
    (step : (system options).step? state label = some (state', events)) :
    state'.Backed (log ++ events) := by
  cases Program.step_of_eq_some step with
  | @handler handler rest queued outcome =>
      have head : handler.Backed log :=
        backed.handlers handler (by simp [queued])
      have start : Turn.Backed log { io := state.io } := by
        constructor <;> simp [backed.io]
      have turn := start.run (by simpa using head) options state.dispatcher.notificationScope outcome
      have longer : ∀ event ∈ log, event ∈ log ++
          (Turn.run options state.dispatcher.notificationScope outcome handler
            { io := state.io }).events :=
        fun event member => List.mem_append_left _ member
      refine ⟨turn.io, ?_, ?_, fun job member => (backed.delayed job member).mono longer, ?_⟩
      · refine (Appends.append turn.posts _).forall_mem fun other member => ?_
        exact (backed.handlers other (by simp [queued, member])).mono longer
      · refine (Appends.append turn.jobs _).forall_mem fun job member => ?_
        exact (backed.jobs job member).mono longer
      · refine (Appends.append turn.events _).forall_mem fun event member => ?_
        exact (backed.events event member).mono longer
  | @job job rest queued verdict =>
      have head : job.Backed log := backed.jobs job (by simp [queued])
      have effect := perform_backed head state.dispatcher verdict
      have longer : ∀ event ∈ log,
          event ∈ log ++ (perform state.dispatcher job verdict).2.events :=
        fun event member => List.mem_append_left _ member
      refine State.Backed.mono longer ?_ ⟨backed.io, ?_, ?_, ?_, backed.events⟩
      · refine (Appends.append ?_ _).forall_mem fun event member =>
          (backed.events event member).mono longer
        exact fun event member => (effect.events event member).mono longer
      · exact (Appends.append effect.posts _).forall_mem backed.handlers
      · intro other member
        rcases List.mem_append.mp member with front | new
        · rcases List.mem_append.mp front with next | old
          · exact effect.next other next
          · exact backed.jobs other (by simp [queued, old])
        · exact effect.jobs other new
      · exact (Appends.append effect.delayed _).forall_mem backed.delayed
  | delayed idle due =>
      rw [List.append_nil]
      refine ⟨backed.io, backed.handlers, ?_, ?_, backed.events⟩
      · intro job member
        rw [List.mem_singleton.mp member]
        exact backed.delayed _ (List.mem_of_getElem? due)
      · exact fun job member => backed.delayed job (List.mem_of_mem_eraseIdx member)
  | input accepted => exact accepts_backed backed (accepts_of_eq_some accepted)

theorem initial_backed : initial.Backed [] := by
  constructor <;> simp [initial]
  constructor <;> simp

/-- In every run, all queued work and all events are traced to the log. -/
theorem run_backed {options : CommonOptions} {permitted : State → Label → Prop}
    {log : List Event} {state : State} (run : Run (system options) permitted initial log state) :
    state.Backed log :=
  run.invariant initial_backed fun backed _ step => step_backed backed step

end UnixDomainStream.Server
