import UnixDomainStream.Server.Binding
import UnixDomainStream.Server.Notifications
import UnixDomainStream.Server.Requests

/-!
# Request timeouts

The timer of a request knows the peer to which the request was sent.  When it fires for a
request that is still pending, it completes that request, and closes that peer if the
options say so; other peers are left alone.
-/

namespace UnixDomainStream.Server

open Library
open Protocol (Bytes)

/-! ## The peer that a timer closes -/

/-- A timer of a request that was sent, whose callback closes the peer of the request. -/
structure Aims (requestManager : RequestManager Nat Nat) (id : Nat)
    (timeoutCallback : Option Nat) : Prop where
  sent : id ≤ requestManager.pendingRequests.issued
  own : ∀ request, (id, request) ∈ requestManager.pendingRequests.entries →
    timeoutCallback = request.peerIdValue

/-- Every timer that waits or has expired closes the peer of its request. -/
structure State.Aimed (state : State) : Prop where
  waits : ∀ wait ∈ state.io.requestManager.waits, Aims state.io.requestManager wait.1 wait.2
  handlers : ∀ timer, .requestTimer timer ∈ state.handlers →
    Aims state.io.requestManager timer.id timer.timeoutCallback

theorem initial_aimed : initial.Aimed := ⟨nofun, nofun⟩

namespace Turn

variable {before after turn : Turn}

/-- A handler of a timer that has been waiting. -/
def WaitedIn (requestManager : RequestManager Nat Nat) (handler : Handler) : Prop :=
  ∀ timer, handler = .requestTimer timer →
    (timer.id, timer.timeoutCallback) ∈ requestManager.waits

/-- A piece of a handler that sends no request. -/
structure Unsent (before after : Turn) : Prop where
  issued : after.io.requestManager.pendingRequests.issued =
    before.io.requestManager.pendingRequests.issued
  pending : ∀ request ∈ after.io.requestManager.pendingRequests.entries,
    request ∈ before.io.requestManager.pendingRequests.entries
  waits : ∀ wait ∈ after.io.requestManager.waits, wait ∈ before.io.requestManager.waits
  posts : Appends (WaitedIn before.io.requestManager) before.posts after.posts

namespace Unsent

theorem refl (turn : Turn) : Unsent turn turn := ⟨rfl, fun _ => id, fun _ => id, .refl _⟩

theorem trans {first second third : Turn} (left : Unsent first second)
    (right : Unsent second third) : Unsent first third := by
  refine ⟨right.issued.trans left.issued,
    fun request pending => left.pending request (right.pending request pending),
    fun wait waiting => left.waits wait (right.waits wait waiting),
    left.posts.trans (right.posts.mono fun handler waited timer own => ?_)⟩
  exact left.waits _ (waited timer own)

/-- A piece that leaves the request manager alone. -/
theorem of_same (same : after.io.requestManager = before.io.requestManager)
    (posts : Appends (fun handler => ∀ timer, handler ≠ .requestTimer timer)
      before.posts after.posts) : Unsent before after :=
  ⟨by rw [same], by rw [same]; exact fun _ => id, by rw [same]; exact fun _ => id,
    posts.mono fun handler other timer own => absurd own (other timer)⟩

end Unsent

theorem Internal.unsent (internal : Internal before after) : Unsent before after := by
  refine .of_same internal.requestManager (internal.posts.mono ?_)
  rintro handler own timer rfl
  cases own

/-- A call that completes requests queues the handlers of their timers. -/
theorem request_unsent {call : RequestManager Nat Nat → RequestTurn Nat Nat}
    {address : Nat × PendingRequest Nat → Bool} {errorCode : ErrorCode} {data : Option Bytes}
    (completes : call turn.io.requestManager =
      turn.io.requestManager.completeWhere address errorCode data) :
    Unsent turn (turn.request call) := by
  refine ⟨?_, fun request pending => ?_, fun wait waiting => ?_, .map ?_ _⟩
  · simp [Turn.request, completes, RequestManager.completeWhere]
  · exact ((mem_pending_request completes).mp pending).1
  · simp only [Turn.request, completes, RequestManager.completeWhere] at waiting
    exact (List.mem_filter.mp waiting).1
  · intro timer member other own
    cases own
    simp only [completes, RequestManager.completeWhere] at member
    obtain ⟨wait, cancelled, rfl⟩ := List.mem_map.mp member
    exact (List.mem_filter.mp cancelled).1

theorem PeerPiece.unsent {options : CommonOptions} {scope : NotificationScope}
    {handler : Handler} {start : Turn}
    (piece : PeerPiece options scope handler start before after)
    (other : ∀ call id data, handler ≠ .request call id data) : Unsent before after := by
  cases piece with
  | complete completes earned => exact request_unsent completes
  | push id frame => exact .of_same rfl (.single (by simp) _)
  | release own listed completed => exact .of_same rfl (.single (by simp) _)
  | erase own completed => exact .of_same rfl (.refl _)
  | dismiss own completed => exact .of_same rfl (.map (by simp) _)
  | send own listed => exact absurd own (other _ _ _)
  | refuse own => exact .of_same rfl (.refl _)
  | speak own =>
      unfold runPeer
      split
      · exact .refl _
      · exact .of_same rfl (.map (by simp) _)
  | create own current => exact .of_same rfl (.single (by simp) _)

/-- Only the handler of `async_request` sends a request. -/
theorem run_unsent (options : CommonOptions) (scope : NotificationScope) (outcome : BindOutcome)
    {handler : Handler} (other : ∀ call id data, handler ≠ .request call id data) (turn : Turn) :
    Unsent turn (turn.run options scope outcome handler) := by
  refine (run_pieces options scope outcome handler turn).effect .refl .trans ?_
  intro before after piece
  rcases piece.sort with internal | piece
  · exact internal.unsent
  · exact piece.unsent other

/-- What aimed at a peer still does after a handler: a number is given to one request only. -/
theorem run_aims (options : CommonOptions) (scope : NotificationScope) (outcome : BindOutcome)
    (handler : Handler) (turn : Turn) {id : Nat} {timeoutCallback : Option Nat}
    (aims : Aims turn.io.requestManager id timeoutCallback) :
    Aims (turn.run options scope outcome handler).io.requestManager id timeoutCallback := by
  by_cases sends : ∃ call peer data, handler = .request call peer data
  · obtain ⟨call, peer, data, rfl⟩ := sends
    show Aims (turn.onRequest call peer data).io.requestManager id timeoutCallback
    unfold onRequest
    split
    · refine ⟨Nat.le_succ_of_le aims.sent, fun request pending => ?_⟩
      rcases List.mem_append.mp pending with old | new
      · exact aims.own request old
      · have numbered := congrArg Prod.fst (List.mem_singleton.mp new)
        have bounded := aims.sent
        simp only at numbered
        omega
    · exact aims
  · have unsent := run_unsent options scope outcome
      (fun call peer data own => sends ⟨call, peer, data, own⟩) turn
    exact ⟨unsent.issued ▸ aims.sent, fun request pending =>
      aims.own request (unsent.pending _ pending)⟩

end Turn

section

variable {state state' : State} {label : Label} {events : List Event}

theorem State.Aimed.handled (aimed : state.Aimed) (options : CommonOptions)
    (outcome : BindOutcome) {handler : Handler} {rest : List Handler}
    (queued : state.handlers = handler :: rest) :
    (state.handled rest
      (Turn.run options state.scope outcome handler { io := state.io })).Aimed := by
  have kept : ∀ {id : Nat} {timeoutCallback : Option Nat},
      Aims state.io.requestManager id timeoutCallback →
      Aims (Turn.run options state.scope outcome handler { io := state.io }).io.requestManager
        id timeoutCallback :=
    fun aims => Turn.run_aims options state.scope outcome handler { io := state.io } aims
  have later : ∀ timer, .requestTimer timer ∈ rest →
      Aims state.io.requestManager timer.id timer.timeoutCallback :=
    fun timer listed => aimed.handlers timer (queued ▸ List.mem_cons_of_mem _ listed)
  by_cases sends : ∃ call peer data, handler = .request call peer data
  · obtain ⟨call, peer, data, rfl⟩ := sends
    change ∀ {id : Nat} {timeoutCallback : Option Nat}, _ →
      Aims (Turn.onRequest call peer data { io := state.io }).io.requestManager
        id timeoutCallback at kept
    show (state.handled rest (Turn.onRequest call peer data { io := state.io })).Aimed
    unfold Turn.onRequest at kept ⊢
    split
    case isTrue connected =>
      rw [if_pos connected] at kept
      refine ⟨fun wait waiting => ?_, fun timer listed => ?_⟩
      · rcases List.mem_append.mp waiting with old | new
        · exact kept (aimed.waits wait old)
        · rw [List.mem_singleton.mp new]
          refine ⟨Nat.le_refl _, fun request pending => ?_⟩
          rcases List.mem_append.mp pending with old | new
          · have bounded := state.io.requestManager.pendingRequests.bounded _ old
            simp only [RequestManager.nextRequestId] at bounded
            omega
          · have same := congrArg (fun entry => entry.2.peerIdValue) (List.mem_singleton.mp new)
            exact same.symm
      · rcases List.mem_append.mp listed with old | new
        · exact kept (later timer old)
        · simp [Turn.sendRequest, Turn.post, Turn.emit] at new
    case isFalse absent =>
      refine ⟨aimed.waits, fun timer listed => ?_⟩
      rcases List.mem_append.mp listed with old | new
      · exact later timer old
      · cases new
  · have unsent := Turn.run_unsent options state.scope outcome
      (fun call peer data own => sends ⟨call, peer, data, own⟩) { io := state.io }
    refine ⟨fun wait waiting => kept (aimed.waits wait (unsent.waits wait waiting)),
      fun timer listed => ?_⟩
    rcases List.mem_append.mp listed with old | new
    · exact kept (later timer old)
    · have waited := unsent.posts.forall_mem (by simp) _ new
      exact kept (aimed.waits _ (waited timer rfl))

/-- The timers of requests are no business of the dispatcher. -/
theorem perform_untimed (dispatcher : Dispatcher) (job : Job) (verdict : Bool) :
    ∀ handler ∈ (perform dispatcher job verdict).2.posts, ∀ timer,
      handler ≠ .requestTimer timer := by
  cases job with
  | signal slots sent =>
      cases slots with
      | accepted => cases sent <;> simp [perform, slot, acceptedSlot]
      | healthCheck probe =>
          cases current : dispatcher.notificationScope.isCurrent probe.token <;> cases sent <;>
            simp [perform, slot, healthCheckSlot, current]
  | notify token notice =>
      cases current : dispatcher.notificationScope.isCurrent token with
      | false => simp [perform, current]
      | true =>
          cases notice with
          | ready => cases verdict <;> simp [perform, current, notify]
          | _ => simp [perform, current, notify]
  | startHealthCheckTimer =>
      cases running : dispatcher.notificationScope.running <;> simp [perform, running]
  | debounceBindRetry =>
      cases running : dispatcher.notificationScope.running <;> simp [perform, running]
  | bindRetry generation =>
      by_cases due : dispatcher.bindRetryTask.generation = generation ∧
        dispatcher.notificationScope.running = true <;> simp [perform, due]
  | healthCheckTimerCall functionId =>
      by_cases due : dispatcher.socketPathHealthCheckTimer.currentFunctionId = functionId <;>
        simp [perform, due]
  | _ => simp [perform, ifExposed]

/-- A step that queues no timer of a request. -/
theorem State.Aimed.of_queued (aimed : state.Aimed)
    (requestManager : state'.io.requestManager = state.io.requestManager)
    (handlers : Appends (fun handler => ∀ timer, handler ≠ .requestTimer timer)
      state.handlers state'.handlers) : state'.Aimed := by
  refine ⟨fun wait waiting => ?_, fun timer listed => ?_⟩
  · rw [requestManager] at waiting ⊢
    exact aimed.waits wait waiting
  · rw [requestManager]
    obtain ⟨more, posted, others⟩ := handlers
    rw [posted] at listed
    exact aimed.handlers timer
      ((List.mem_append.mp listed).resolve_right fun new => others _ new timer rfl)

theorem State.Aimed.accepts {input : Input} (aimed : state.Aimed)
    (accepts : Accepts state input events state') : state'.Aimed := by
  cases accepts with
  | asyncStart => exact aimed.of_queued rfl (.refl _)
  | asyncStop => exact aimed.of_queued rfl (.refl _)
  | destroy => exact aimed.of_queued rfl (.refl _)
  | @requestExpires requestId requestManager timer expires =>
      obtain ⟨pending, waits, waited⟩ := RequestManager.expire?_eq_some expires
      have kept : ∀ {id : Nat} {timeoutCallback : Option Nat},
          Aims state.io.requestManager id timeoutCallback →
          Aims requestManager id timeoutCallback :=
        fun aims => ⟨pending ▸ aims.sent, pending ▸ aims.own⟩
      refine ⟨fun wait waiting => kept (aimed.waits wait (waits wait waiting)),
        fun other listed => ?_⟩
      rcases List.mem_append.mp listed with old | new
      · exact kept (aimed.handlers other old)
      · cases List.mem_singleton.mp new
        exact kept (aimed.waits _ waited)
  | _ =>
      refine aimed.of_queued rfl (.single ?_ _)
      simp

theorem step_aimed {options : CommonOptions} (aimed : state.Aimed)
    (step : (system options).step? state label = some (state', events)) : state'.Aimed := by
  cases Program.step_of_eq_some step with
  | handler queued outcome => exact aimed.handled options outcome queued
  | job queued verdict =>
      exact aimed.of_queued rfl (.append (perform_untimed state.dispatcher _ verdict) _)
  | delayed idle due => exact aimed.of_queued rfl (.refl _)
  | input accepted => exact aimed.accepts (accepts_of_eq_some accepted)

theorem run_aimed {options : CommonOptions} {permitted : State → Label → Prop}
    {log : List Event} (run : Run (system options) permitted initial log state) : state.Aimed :=
  run.invariant_state initial_aimed fun aimed _ step => step_aimed aimed step

end

/-! ## What a firing does -/

/-- The requests that a timeout of the request `number`, sent to the peer `id`, completes. -/
def timedOut (options : CommonOptions) (number id : Nat) (request : Nat × PendingRequest Nat) :
    Bool :=
  request.1 == number ||
    (options.invalidateConnectionOnRequestError && request.2.peerIdValue == some id)

/-- The effect of a timeout of `request`, sent to the peer `id`. -/
structure TimesOut (options : CommonOptions) (number id : Nat) (request : PendingRequest Nat)
    (rest : List Handler) (state state' : State) : Prop where
  dispatcher : state'.dispatcher = state.dispatcher
  delayed : state'.delayed = state.delayed
  io : state'.io =
    { state.io with requestManager := state'.io.requestManager, peers := state'.io.peers }
  issued : state'.io.requestManager.pendingRequests.issued =
    state.io.requestManager.pendingRequests.issued
  pending : state'.io.requestManager.pendingRequests.entries =
    state.io.requestManager.pendingRequests.entries.filter
      fun request => !timedOut options number id request
  waits : state'.io.requestManager.waits =
    state.io.requestManager.waits.filter fun wait =>
      !state.io.requestManager.pendingRequests.entries.any fun request =>
        timedOut options number id request && request.1 == wait.1
  peers : state'.io.peers =
    if options.invalidateConnectionOnRequestError then state.io.peers.filter fun key => key != id
    else state.io.peers
  /-- The other callbacks are enqueued in the order in which the table is walked. -/
  jobs : ∃ aborted : List Job, aborted.Perm
      ((state.io.requestManager.pendingRequests.entries.filter fun other =>
        timedOut options number id other && other.1 != number).map fun other =>
          .requestCallback other.2.callback .operationAborted none) ∧
    state'.jobs = state.jobs ++ .requestCallback request.callback .timedOut none :: aborted
  handlers : ∃ cancelled : List (Nat × Option Nat), state'.handlers =
    rest ++ cancelled.map (fun wait => .requestTimer ⟨wait.1, .operationAborted, wait.2⟩) ++
      if options.invalidateConnectionOnRequestError then [.peer (.accepted id) (.close true)]
      else []

/-- Nothing of another peer is affected. -/
theorem TimesOut.others {options : CommonOptions} {number id : Nat}
    {request : PendingRequest Nat} {rest : List Handler} {state state' : State}
    (timesOut : TimesOut options number id request rest state state')
    (own : (number, request) ∈ state.io.requestManager.pendingRequests.entries)
    (owner : request.peerIdValue = some id) :
    (∀ peer ∈ state.io.peers, peer ≠ id → peer ∈ state'.io.peers) ∧
      ∀ other ∈ state.io.requestManager.pendingRequests.entries, other.2.peerIdValue ≠ some id →
        other ∈ state'.io.requestManager.pendingRequests.entries ∧
        ∀ wait ∈ state.io.requestManager.waits, wait.1 = other.1 →
          wait ∈ state'.io.requestManager.waits := by
  have spared : ∀ other ∈ state.io.requestManager.pendingRequests.entries,
      other.2.peerIdValue ≠ some id → timedOut options number id other = false := by
    intro other pending foreign
    have distinct : other.1 ≠ number := by
      rintro rfl
      exact foreign (Ledger.eq_of_mem pending own ▸ owner)
    simp [timedOut, distinct, foreign]
  refine ⟨fun peer listed foreign => ?_, fun other pending foreign => ⟨?_, ?_⟩⟩
  · rw [timesOut.peers]
    split
    · exact List.mem_filter.mpr ⟨listed, by simpa using foreign⟩
    · exact listed
  · rw [timesOut.pending]
    exact List.mem_filter.mpr ⟨pending, by simp [spared other pending foreign]⟩
  · rintro wait waiting same
    rw [timesOut.waits]
    refine List.mem_filter.mpr ⟨waiting, ?_⟩
    rw [Bool.not_eq_true', List.any_eq_false]
    rintro ⟨key, value⟩ listed affected
    simp only [Bool.and_eq_true, beq_iff_eq, same] at affected
    obtain ⟨affected, rfl⟩ := affected
    have twin := Ledger.eq_of_mem listed pending
    have kept := spared other pending foreign
    rw [twin] at affected
    exact Bool.false_ne_true (kept.symm.trans affected)

/-- A firing for a request that is no longer pending does nothing. -/
theorem Turn.onRequestTimer_settled (options : CommonOptions) {timer : RequestTimer Nat}
    {turn : Turn} (settled : timer.errorCode = .success →
      ∀ request, (timer.id, request) ∉ turn.io.requestManager.pendingRequests.entries) :
    turn.onRequestTimer options timer = turn := by
  have idle : turn.io.requestManager.onTimer timer = ({ manager := turn.io.requestManager }, none) := by
    unfold RequestManager.onTimer
    refine if_neg ?_
    rintro ⟨fires, found⟩
    obtain ⟨request, found⟩ := Option.isSome_iff_exists.mp found
    exact settled fires request (Ledger.find?_eq_some.mp found)
  simp [onRequestTimer, idle, request]

/-- A firing for a pending request. -/
theorem Turn.onRequestTimer_fires (options : CommonOptions) {timer : RequestTimer Nat}
    {turn : Turn} {request : PendingRequest Nat} {id : Nat} (fires : timer.errorCode = .success)
    (pending : (timer.id, request) ∈ turn.io.requestManager.pendingRequests.entries)
    (aims : timer.timeoutCallback = some id) :
    turn.onRequestTimer options timer =
      let completed := turn.request (·.complete timer.id .timedOut none)
      if options.invalidateConnectionOnRequestError then completed.closePeer id else completed := by
  have found := Ledger.find?_eq_some.mpr pending
  have fired : turn.io.requestManager.onTimer timer =
      (turn.io.requestManager.complete timer.id .timedOut none, some id) := by
    simp [RequestManager.onTimer, fires, found, aims]
  simp only [onRequestTimer, Turn.request, fired]

section

variable {options : CommonOptions} {state state' : State} {outcome : BindOutcome}
variable {events : List Event} {timer : RequestTimer Nat} {rest : List Handler}

variable {request : PendingRequest Nat} {id : Nat}

/-- The request alone is completed. -/
theorem handled_completes (fires : timer.errorCode = .success)
    (pending : (timer.id, request) ∈ state.io.requestManager.pendingRequests.entries)
    (aims : timer.timeoutCallback = some id)
    (closes : options.invalidateConnectionOnRequestError = false) :
    TimesOut options timer.id id request rest state
      (state.handled rest (Turn.onRequestTimer options timer { io := state.io })) := by
  have one : state.io.requestManager.pendingRequests.addressed
      (fun other => other.1 == timer.id) = [(timer.id, request)] := Ledger.filter_of_mem pending
  rw [Turn.onRequestTimer_fires options fires pending aims, closes]
  have affected : timedOut options timer.id id = fun other => other.1 == timer.id := by
    funext other
    simp [timedOut, closes]
  refine ⟨rfl, rfl, rfl, rfl, ?_, ?_, by rw [closes]; rfl, ?_, ?_⟩
  · rw [affected]
    rfl
  · refine List.filter_congr fun wait _ => ?_
    rw [affected]
    exact congrArg not List.any_filter
  · have none : (state.io.requestManager.pendingRequests.entries.filter fun other =>
        timedOut options timer.id id other && other.1 != timer.id) = [] := by
      simp [affected, List.filter_eq_nil_iff]
    rw [none]
    refine ⟨[], .refl _, ?_⟩
    simp only [State.handled, Turn.request, RequestManager.complete,
      RequestManager.completeWhere, one]
    rfl
  · refine ⟨state.io.requestManager.waits.filter fun wait =>
      [(timer.id, request)].any fun request => request.1 == wait.1, ?_⟩
    simp only [State.handled, Turn.request, RequestManager.complete,
      RequestManager.completeWhere, one, closes]
    simp

/-- The request is completed, and its peer is closed. -/
theorem handled_closes (fires : timer.errorCode = .success)
    (pending : (timer.id, request) ∈ state.io.requestManager.pendingRequests.entries)
    (aims : timer.timeoutCallback = some id) (connected : id ∈ state.io.peers)
    (closes : options.invalidateConnectionOnRequestError = true) :
    TimesOut options timer.id id request rest state
      (state.handled rest (Turn.onRequestTimer options timer { io := state.io })) := by
  have one : state.io.requestManager.pendingRequests.addressed
      (fun other => other.1 == timer.id) = [(timer.id, request)] := Ledger.filter_of_mem pending
  rw [Turn.onRequestTimer_fires options fires pending aims, closes]
  have affected : timedOut options timer.id id = fun other =>
      other.1 == timer.id || other.2.peerIdValue == some id := by
    funext other
    simp [timedOut, closes]
  obtain ⟨entries, waits, completions⟩ :=
    state.io.requestManager.completeWhere_completeWhere (fun other => other.1 == timer.id)
      (fun other => other.2.peerIdValue == some id) .timedOut .operationAborted none none
  have closed : Turn.closePeer id
      (Turn.request (·.complete timer.id .timedOut none) { io := state.io }) =
      (Turn.post (.peer (.accepted id) (.close true))
        (Turn.request (·.completePeer id .operationAborted)
          (Turn.request (·.complete timer.id .timedOut none) { io := state.io }))).erasePeer
            id := if_pos connected
  simp only [if_true, closed]
  refine ⟨rfl, rfl, rfl, rfl, ?_, ?_, by rw [closes]; rfl, ?_, ?_⟩
  · rw [affected]
    exact entries
  · rw [affected]
    exact waits
  · have others : (state.io.requestManager.pendingRequests.entries.filter fun other =>
        timedOut options timer.id id other && other.1 != timer.id) =
        state.io.requestManager.pendingRequests.entries.filter fun other =>
          other.2.peerIdValue == some id && !(other.1 == timer.id) := by
      refine List.filter_congr fun other _ => ?_
      rw [affected]
      cases own : other.1 == timer.id <;> simp [bne, own]
    have aborted := congrArg (List.map fun completion : Completion Nat =>
      Job.requestCallback completion.callback completion.errorCode completion.data) completions
    rw [List.map_map] at aborted
    have expired : (state.io.requestManager.complete timer.id .timedOut none).completions =
        [⟨timer.id, request.callback, .timedOut, none⟩] := congrArg (List.map _) one
    rw [others]
    refine ⟨_, .refl _, ?_⟩
    show state.jobs ++ (((state.io.requestManager.complete timer.id .timedOut none).completions.map
      fun completion => Job.requestCallback completion.callback completion.errorCode
        completion.data) ++ _) = _
    rw [expired]
    exact congrArg (fun jobs =>
      state.jobs ++ .requestCallback request.callback .timedOut none :: jobs) aborted
  · refine ⟨(state.io.requestManager.waits.filter fun wait =>
      (state.io.requestManager.pendingRequests.addressed
        fun other => other.1 == timer.id).any fun request => request.1 == wait.1) ++
      ((state.io.requestManager.complete timer.id .timedOut none).manager.waits.filter
        fun wait => ((state.io.requestManager.complete timer.id .timedOut
          none).manager.pendingRequests.addressed fun other =>
            other.2.peerIdValue == some id).any fun request => request.1 == wait.1), ?_⟩
    rw [List.map_append, closes]
    simp only [State.handled, Turn.erasePeer, Turn.post, Turn.request,
      RequestManager.complete, RequestManager.completePeer, RequestManager.completeWhere,
      List.map_map, List.append_assoc, List.nil_append]
    rfl

/-- Nothing changes if the timer was cancelled or its request is no longer pending. -/
theorem step_settled (queued : state.handlers = .requestTimer timer :: rest)
    (settled : timer.errorCode = .success →
      ∀ request, (timer.id, request) ∉ state.io.requestManager.pendingRequests.entries)
    (step : (system options).step? state (.handler outcome) = some (state', events)) :
    state' = { state with handlers := rest } ∧ events = [] := by
  cases Program.step_of_eq_some step with
  | @handler handler others listed =>
      rw [queued] at listed
      cases listed
      have idle : Turn.run options state.scope outcome (.requestTimer timer) { io := state.io } =
          { io := state.io } := Turn.onRequestTimer_settled options settled
      have ran : handle options state.dispatcher state.io (.requestTimer timer) outcome =
          (state.io, {}) := by
        simp only [handle, idle]
      simp only [program, ran, List.append_nil, and_self]

theorem step_timesOut (aimed : state.Aimed) (owned : state.io.Owned)
    (queued : state.handlers = .requestTimer timer :: rest) (fires : timer.errorCode = .success)
    (pending : (timer.id, request) ∈ state.io.requestManager.pendingRequests.entries)
    (step : (system options).step? state (.handler outcome) = some (state', events)) :
    ∃ id ∈ state.io.peers, request.peerIdValue = some id ∧
      TimesOut options timer.id id request rest state state' := by
  obtain ⟨id, connected, owner⟩ := owned _ pending
  have aims : timer.timeoutCallback = some id :=
    ((aimed.handlers timer (queued ▸ List.mem_cons_self)).own request pending).trans owner
  refine ⟨id, connected, owner, ?_⟩
  cases Program.step_of_eq_some step with
  | @handler handler others listed =>
      rw [queued] at listed
      cases listed
      cases closes : options.invalidateConnectionOnRequestError with
      | false => exact handled_completes fires pending aims closes
      | true => exact handled_closes fires pending aims connected closes

end

/-! ## The close of an exposed peer -/

namespace Lifecycle

/-- The notifications of the close that a phase tells of. -/
def Phase.closings : Phase → Nat
  | .closed => 1
  | _ => 0

/-- An announced peer that stays exposed only until its close is reported. -/
structure Closing (phase : Phase) (life : Lifecycle) : Prop where
  announced : phase = .connected ∨ phase = .closed
  owed : life.exposed = true → life.closing = true ∨ .peerClosed ∈ life.stages

variable {calm : Prop} {phase : Phase} {before after : Lifecycle} {marks : List Mark}

theorem Closing.kept (closing : Closing phase before) (exposed : after.exposed = before.exposed)
    (closing' : before.closing = true → after.closing = true)
    (stages : .peerClosed ∈ before.stages → .peerClosed ∈ after.stages) : Closing phase after :=
  ⟨closing.announced, fun shown => (closing.owed (exposed ▸ shown)).imp closing' stages⟩

/-- The head of the stages is another one. -/
theorem Closing.advance (closing : Closing phase before) (exposed : after.exposed = before.exposed)
    (closing' : after.closing = before.closing) {stage : Stage} {rest : List Stage}
    (head : before.stages = stage :: rest) (other : stage ≠ .peerClosed)
    (stages : ∀ later ∈ rest, later ∈ after.stages) : Closing phase after := by
  refine closing.kept exposed (fun held => closing'.trans held) fun reported => ?_
  rw [head] at reported
  exact stages _ ((List.mem_cons.mp reported).resolve_left other.symm)

/-- Every move brings the close nearer, and tells of it at most once. -/
theorem Closing.move (closing : Closing phase before) (traced : Traced phase before)
    (move : Move calm before marks after) :
    Closing (phase.after marks) after ∧
      marks.count .closed + phase.closings = (phase.after marks).closings := by
  have created : before.created = true := by
    cases created : before.created with
    | true => rfl
    | false =>
        have unborn := (traced.silent created).1
        rcases closing.announced with same | same <;> cases unborn.symm.trans same
  have announced : ∀ {rest : List Stage}, before.stages ≠ .verify :: rest := by
    intro rest head
    have accepted := traced.accepted_of_mem (head ▸ List.mem_cons_self) rfl
    rcases closing.announced with same | same <;> cases accepted.symm.trans same
  have silent : ([] : List Mark).count .closed + phase.closings = (phase.after []).closings :=
    Nat.zero_add _
  have left : ∀ {stages : List Stage}, .peerClosed ∈ before.stages →
      .peerClosed ∈ before.stages ++ stages := List.mem_append_left _
  cases move with
  | fade fades =>
      exact ⟨closing.kept fades.exposed fades.closing.trans (fades.stages ▸ ·), silent⟩
  | create fresh => rw [created] at fresh; cases fresh
  | raise alive => exact ⟨closing.kept rfl id left, silent⟩
  | message alive => exact ⟨closing.kept rfl id left, silent⟩
  | error alive => exact ⟨closing.kept rfl id left, silent⟩
  | shut alive => exact ⟨closing.kept rfl id left, silent⟩
  | finish held => exact ⟨closing.kept rfl id left, silent⟩
  | settle reported => exact ⟨⟨closing.announced, fun _ => .inr reported⟩, silent⟩
  | release closable => exact ⟨⟨closing.announced, fun _ => .inl rfl⟩, silent⟩
  | erase => exact ⟨closing.kept rfl id id, silent⟩
  | dismiss => exact ⟨closing.kept rfl id id, silent⟩
  | destroy unlisted finished =>
      exact ⟨closing.kept rfl id fun reported => List.mem_filter.mpr ⟨reported, rfl⟩, silent⟩
  | takeReady head =>
      exact ⟨closing.advance rfl rfl head nofun fun _ => List.mem_append_left _, silent⟩
  | takeMessage head delivers =>
      exact ⟨closing.advance rfl rfl head nofun fun _ => List.mem_append_left _, silent⟩
  | takeError head =>
      exact ⟨closing.advance rfl rfl head nofun fun _ => List.mem_cons_of_mem _, silent⟩
  | takeClosed head =>
      exact ⟨closing.advance rfl rfl head nofun fun _ => List.mem_cons_of_mem _, silent⟩
  | reportError head =>
      exact ⟨closing.advance rfl rfl head nofun fun _ => List.mem_append_left _, silent⟩
  | reportClosed head =>
      exact ⟨closing.advance rfl rfl head nofun fun _ => List.mem_append_left _, silent⟩
  | discard head => exact absurd head announced
  | expose head => exact absurd head announced
  | reject head => exact absurd head announced
  | deliver head =>
      split
      · exact ⟨closing.advance rfl rfl head nofun fun _ => id, Nat.zero_add _⟩
      · exact ⟨closing.advance rfl rfl head nofun fun _ => id, silent⟩
  | peerClosed head =>
      cases shown : before.exposed with
      | false => exact ⟨⟨closing.announced, nofun⟩, silent⟩
      | true =>
          obtain rfl := traced.exposed shown
          exact ⟨⟨.inr rfl, nofun⟩, rfl⟩
  | hide => exact ⟨⟨closing.announced, nofun⟩, silent⟩
  | ask => exact ⟨closing.kept rfl id id, silent⟩
  | stop => exact ⟨closing.kept rfl id id, silent⟩

theorem Closing.moves (closing : Closing phase before) (traced : Traced phase before)
    (moves : Moves calm before marks after) :
    ∃ phase', Traced phase' after ∧ Closing phase' after ∧
      marks.count .closed + phase.closings = phase'.closings := by
  induction moves with
  | refl => exact ⟨phase, traced, closing, Nat.zero_add _⟩
  | next _ move ih =>
      obtain ⟨phase', traced', closing', counted⟩ := ih
      obtain ⟨closing, count⟩ := closing'.move traced' move
      refine ⟨_, (traced'.move move).1, closing, ?_⟩
      rw [List.count_append]
      omega

end Lifecycle

theorem count_marks (id : Nat) (events : List Event) :
    (marks id events).count .closed = events.count (.peerClosed id) := by
  rw [marks, List.count_filterMap]
  refine List.countP_congr fun event _ => ?_
  cases event <;> simp [Event.mark?]

theorem Job.eq_of_stage {id : Nat} {job : Job} (stage : job.stage? id = some .peerClosed) :
    job = .peerClosed id := by
  cases job with
  | peerClosed owner =>
      simp only [Job.stage?, Option.ite_none_right_eq_some] at stage
      rw [stage.1]
  | signal slots sent =>
      cases slots <;> cases sent <;> simp [Job.stage?, stageOf] at stage
  | notify token notice => cases notice <;> simp [Job.stage?] at stage
  | _ => simp [Job.stage?] at stage

theorem Handler.eq_of_finishes {id : Nat} {handler : Handler}
    (finishes : handler.finishes id = true) : handler = .peer (.accepted id) (.close true) := by
  unfold Handler.finishes at finishes
  split at finishes
  · rw [beq_iff_eq] at finishes
    rw [finishes]
  · cases finishes

/-- No stop clears the exposed peers. -/
def Unstopped (state : State) : Label → Prop
  | .job _ => state.jobs.head? ≠ some .clearExposedPeerIds
  | _ => True

instance (state : State) (label : Label) : Decidable (Unstopped state label) :=
  match label with
  | .job _ => inferInstanceAs (Decidable (state.jobs.head? ≠ some .clearExposedPeerIds))
  | .handler _ => .isTrue trivial
  | .delayed _ => .isTrue trivial
  | .input _ => .isTrue trivial

theorem perform_exposed {dispatcher : Dispatcher} {id : Nat}
    (exposed : id ∈ dispatcher.exposedPeerIds) {job : Job} (other : job ≠ .clearExposedPeerIds)
    (verdict : Bool) : id ∈ (perform dispatcher job verdict).1.exposedPeerIds ∨
      .peerClosed id ∈ (perform dispatcher job verdict).2.events := by
  cases job with
  | clearExposedPeerIds => exact absurd rfl other
  | notify token notice =>
      refine .inl ?_
      simp only [perform]
      split
      · cases notice with
        | ready owner credentials =>
            cases verdict with
            | false => exact exposed
            | true => exact Finset.mem_insert_of_mem exposed
        | _ => exact exposed
      · exact exposed
  | peerClosed owner =>
      by_cases own : owner = id
      · subst own
        refine .inr ?_
        simp [perform, exposed]
      · exact .inl (Finset.mem_erase.mpr ⟨Ne.symm own, exposed⟩)
  | startHealthCheckTimer =>
      simp only [perform]
      split <;> exact .inl exposed
  | debounceBindRetry =>
      simp only [perform]
      split <;> exact .inl exposed
  | bindRetry generation =>
      simp only [perform]
      split <;> exact .inl exposed
  | healthCheckTimerCall functionId =>
      simp only [perform]
      split <;> exact .inl exposed
  | _ => exact .inl exposed

/-- Without a stop, a peer stays exposed until its `peer_closed`. -/
theorem step_exposed {options : CommonOptions} {state state' : State} {label : Label}
    {events : List Event} {id : Nat} (exposed : id ∈ state.dispatcher.exposedPeerIds)
    (unstopped : Unstopped state label)
    (step : (system options).step? state label = some (state', events)) :
    id ∈ state'.dispatcher.exposedPeerIds ∨ .peerClosed id ∈ events := by
  cases Program.step_of_eq_some step with
  | handler queued outcome => exact .inl exposed
  | @job job rest queued verdict =>
      refine perform_exposed exposed ?_ verdict
      rintro rfl
      exact unstopped (congrArg List.head? queued)
  | delayed idle due => exact .inl exposed
  | input accepted => cases accepts_of_eq_some accepted <;> exact .inl exposed

/-- The close of the peer is told once, or is on its way to be told. -/
def ToldOnce (id : Nat) (more : List Event) (state : State) : Prop :=
  more.count (.peerClosed id) = 1 ∨
    (more.count (.peerClosed id) = 0 ∧ id ∈ state.dispatcher.exposedPeerIds ∧
      (.peer (.accepted id) (.close true) ∈ state.handlers ∨ .peerClosed id ∈ state.jobs))

/-- An exposed peer whose close is queued is told closed once. -/
theorem run_toldOnce {options : CommonOptions} {log more : List Event} {state final : State}
    {id : Nat} (run : Run (system options) (fun _ _ => True) initial log state)
    (exposed : id ∈ state.dispatcher.exposedPeerIds)
    (closes : .peer (.accepted id) (.close true) ∈ state.handlers)
    (continued : Run (system options) Unstopped state more final) : ToldOnce id more final := by
  obtain ⟨phase, count, _, traced⟩ := run_inPhase id run
  obtain rfl := traced.exposed (decide_eq_true exposed)
  have closing : Lifecycle.Closing .connected (state.life id) :=
    ⟨.inl rfl, fun _ => .inl (List.any_eq_true.mpr ⟨_, closes, beq_self_eq_true id⟩)⟩
  have kept : ∃ phase, Lifecycle.Traced phase (final.life id) ∧
      Lifecycle.Closing phase (final.life id) ∧
      more.count (.peerClosed id) = phase.closings ∧
      (phase = .connected → id ∈ final.dispatcher.exposedPeerIds) := by
    induction continued with
    | refl => exact ⟨.connected, traced, closing, rfl, fun _ => exposed⟩
    | @next more state label events state' continued unstopped step ih =>
        obtain ⟨phase, traced, closing, counted, shown⟩ := ih
        have whole := run.append (continued.mono fun _ => trivial)
        have moves := @step_moves False id phase options state state' label events traced
          (run_delaysSession whole) (fun calm => calm.elim) step
        obtain ⟨phase', traced', closing', count⟩ := closing.moves traced moves
        rw [count_marks] at count
        refine ⟨phase', traced', closing', by rw [List.count_append]; omega, ?_⟩
        rintro rfl
        simp only [Lifecycle.Phase.closings] at count
        have earlier : phase = .connected := by
          refine closing.announced.resolve_right ?_
          rintro rfl
          simp at count
        refine (step_exposed (shown earlier) unstopped step).resolve_right fun told => ?_
        have some := List.count_pos_iff.mpr told
        omega
  obtain ⟨phase, _, closing, counted, shown⟩ := kept
  rcases closing.announced with rfl | rfl
  · have still := shown rfl
    refine .inr ⟨counted, still, ?_⟩
    rcases closing.owed (decide_eq_true still) with held | reported
    · obtain ⟨handler, listed, finishes⟩ := List.any_eq_true.mp held
      exact .inl (Handler.eq_of_finishes finishes ▸ listed)
    · obtain ⟨job, listed, stage⟩ := List.mem_filterMap.mp reported
      exact .inr (Job.eq_of_stage stage ▸ listed)
  · exact .inl counted

/-- A request timeout affects only its own peer.  A firing for a request that is no longer
pending changes nothing.  A firing for a pending request completes it; if the options say
so, it also completes the other requests of the peer, drops the peer and queues its close,
and the close of an exposed peer is told once.  Other peers, their requests and timers,
and the exposed peers are left alone. -/
theorem request_timeout_affects_own_peer (options : CommonOptions) {log events : List Event}
    {state state' : State} {timer : RequestTimer Nat} {rest : List Handler}
    {outcome : BindOutcome}
    (run : Run (system options) (fun _ _ => True) initial log state)
    (queued : state.handlers = .requestTimer timer :: rest) (fires : timer.errorCode = .success)
    (step : (system options).step? state (.handler outcome) = some (state', events)) :
    ((∀ request, (timer.id, request) ∉ state.io.requestManager.pendingRequests.entries) →
      state' = { state with handlers := rest } ∧ events = []) ∧
    ∀ request, (timer.id, request) ∈ state.io.requestManager.pendingRequests.entries →
      ∃ id ∈ state.io.peers, request.peerIdValue = some id ∧
        TimesOut options timer.id id request rest state state' ∧
        (∀ peer ∈ state.io.peers, peer ≠ id → peer ∈ state'.io.peers) ∧
        (∀ other ∈ state.io.requestManager.pendingRequests.entries,
          other.2.peerIdValue ≠ some id →
            other ∈ state'.io.requestManager.pendingRequests.entries ∧
            ∀ wait ∈ state.io.requestManager.waits, wait.1 = other.1 →
              wait ∈ state'.io.requestManager.waits) ∧
        (options.invalidateConnectionOnRequestError = true →
          id ∈ state.dispatcher.exposedPeerIds →
            ∀ more final, Run (system options) Unstopped state' more final →
              ToldOnce id more final) := by
  refine ⟨fun settled => step_settled queued (fun _ => settled) step, fun request pending => ?_⟩
  obtain ⟨id, connected, owner, timesOut⟩ :=
    step_timesOut (run_aimed run) (run_owned run) queued fires pending step
  obtain ⟨peers, others⟩ := timesOut.others pending owner
  refine ⟨id, connected, owner, timesOut, peers, others, fun closes exposed more final => ?_⟩
  obtain ⟨cancelled, handlers⟩ := timesOut.handlers
  rw [if_pos closes] at handlers
  refine run_toldOnce (run.next trivial step) (timesOut.dispatcher ▸ exposed) ?_
  rw [handlers]
  exact List.mem_append_right _ (List.mem_singleton.mpr rfl)

set_option synthInstance.maxSize 1000 in
/-- Two requests of one peer and a request of another are pending when the first expires. -/
theorem request_timeout_affects_own_peer_first :
    ∃ log events more state state' final,
      Run (system {}) (fun _ _ => True) initial log state ∧
      (system {}).step? state (.handler .succeeded) = some (state', events) ∧
      state.io.requestManager.pendingRequests.entries =
        [(1, ⟨some 1, 7⟩), (2, ⟨some 1, 8⟩), (3, ⟨some 2, 9⟩)] ∧
      TimesOut {} 1 1 ⟨some 1, 7⟩ [] state state' ∧
      Run (system {}) Unstopped state' more final ∧
      more = [.requestCallback 7 .timedOut none, .requestCallback 8 .operationAborted none,
        .peerClosed 1] ∧ ToldOnce 1 more final := by
  let handlers (count : Nat) : List Label := List.replicate count (.handler .succeeded)
  let jobs (count : Nat) : List Label := List.replicate count (.job true)
  let connect (id : Nat) : List Label :=
    [.input (.acceptCompletes (.socket ⟨none, none, none⟩))] ++ handlers 2 ++
      [.input (.peerCompletes (.accepted id) (.timer .readyDeadline))] ++ handlers 1 ++ jobs 2
  let labels : List Label :=
    [.input .asyncStart] ++ jobs 2 ++ handlers 1 ++ jobs 5 ++ handlers 1 ++ connect 1 ++
      connect 2 ++ [.input (.asyncRequest 7 1 [1]), .input (.asyncRequest 8 1 [2]),
        .input (.asyncRequest 9 2 [3])] ++ handlers 6 ++ [.input (.requestExpires 1)]
  let timer : RequestTimer Nat := ⟨1, .success, some 1⟩
  let view (state : State) := (decide (1 ∈ state.dispatcher.exposedPeerIds), state.handlers,
    state.io.requestManager.pendingRequests.entries,
    ((system {}).step? state (.handler .succeeded)).map fun next =>
      (next.2, (Run.steps? (system {}) Unstopped next.1 (handlers 2 ++ jobs 5)).map Prod.snd))
  have computed : (Run.steps? (system {}) (fun _ _ => True) initial labels).map
      (fun result => (view result.1, result.2)) =
      some ((true, [.requestTimer timer],
        [(1, ⟨some 1, 7⟩), (2, ⟨some 1, 8⟩), (3, ⟨some 2, 9⟩)],
        some ([], some [.requestCallback 7 .timedOut none,
          .requestCallback 8 .operationAborted none, .peerClosed 1])),
        [.bound 1, .accepted 1 ⟨none, none, none⟩, .verifyPeer 1 ⟨none, none, none⟩ true,
          .peerConnected 1 ⟨none, none, none⟩, .accepted 2 ⟨none, none, none⟩,
          .verifyPeer 2 ⟨none, none, none⟩ true, .peerConnected 2 ⟨none, none, none⟩,
          .requestIssued 7, .requestIssued 8, .requestIssued 9, .requestSent 7 1 1,
          .requestSent 8 2 1, .requestSent 9 3 2]) := by
    decide +kernel
  obtain ⟨state, run, seen⟩ := Run.of_view computed
  simp only [view, Prod.mk.injEq, decide_eq_true_eq, Option.map_eq_some_iff] at seen
  obtain ⟨exposed, queued, pending, ⟨state', events⟩, step, silent, ⟨final, more⟩, ran, told⟩ :=
    seen
  have first : (timer.id, (⟨some 1, 7⟩ : PendingRequest Nat)) ∈
      state.io.requestManager.pendingRequests.entries := by
    rw [pending]
    exact List.mem_cons_self
  obtain ⟨id, _, owner, timesOut, _, _, once⟩ :=
    (request_timeout_affects_own_peer {} run queued rfl step).2 ⟨some 1, 7⟩ first
  cases owner
  have continued := Run.of_steps? ran
  exact ⟨_, events, more, state, state', final, run, step, pending, timesOut, continued, told,
    once rfl exposed more final continued⟩

end UnixDomainStream.Server
