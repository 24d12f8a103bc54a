import UnixDomainStream.Server.Provenance

/-!
# Requests of a server

A pending request belongs to a connected peer.  Every call to `async_request` is
in one place: its handler is queued, its request is pending, its callback is
queued or its callback has been called.
-/

namespace UnixDomainStream.Server

open Library
open Protocol (Bytes)

/-! ## Pending requests have a connected peer -/

/-- Every pending request carries the id of a peer in the table. -/
def Io.Owned (io : Io) : Prop :=
  ∀ request ∈ io.requestManager.pendingRequests.entries,
    ∃ id ∈ io.peers, request.2.peerIdValue = some id

namespace Turn

variable {before after turn : Turn}

theorem Internal.owned (internal : Internal before after) (owned : before.io.Owned) :
    after.io.Owned := by
  intro request pending
  rw [internal.requestManager] at pending
  rw [internal.peers]
  exact owned request pending

theorem request_owned {call : RequestManager Nat Nat → RequestTurn Nat Nat}
    {address : Nat × PendingRequest Nat → Bool} {errorCode : ErrorCode} {data : Option Bytes}
    (completes : call turn.io.requestManager =
      turn.io.requestManager.completeWhere address errorCode data)
    (owned : turn.io.Owned) : (turn.request call).io.Owned :=
  fun request pending => owned request ((mem_pending_request completes).mp pending).1

/-- A peer may leave the table once its requests are completed. -/
theorem erasePeer_owned {id : Nat} (owned : turn.io.Owned)
    (completed : ∀ request ∈ turn.io.requestManager.pendingRequests.entries,
      request.2.peerIdValue ≠ some id) : (turn.erasePeer id).io.Owned := by
  intro request pending
  obtain ⟨owner, listed, same⟩ := owned request pending
  refine ⟨owner, List.mem_filter.mpr ⟨listed, ?_⟩, same⟩
  rw [bne_iff_ne]
  rintro rfl
  exact completed request pending same

theorem PeerPiece.owned {options : CommonOptions} {scope : NotificationScope}
    {handler : Handler} {start : Turn}
    (piece : PeerPiece options scope handler start before after) (owned : before.io.Owned) :
    after.io.Owned := by
  cases piece with
  | complete completes earned => exact request_owned completes owned
  | push id frame => exact owned
  | release own listed completed => exact erasePeer_owned owned completed
  | erase own completed => exact erasePeer_owned owned completed
  | dismiss own completed =>
      intro request pending
      exact absurd (completed ▸ pending) List.not_mem_nil
  | @send call id data _ own listed =>
      intro request pending
      rcases List.mem_append.mp pending with old | new
      · exact owned request old
      · rw [List.mem_singleton.mp new]
        exact ⟨id, listed, rfl⟩
  | refuse own => exact owned
  | speak own =>
      unfold runPeer
      split <;> exact owned
  | create own current =>
      intro request pending
      obtain ⟨id, listed, same⟩ := owned request pending
      exact ⟨id, List.mem_append_left _ listed, same⟩

/-- Every handler leaves every pending request with a connected peer. -/
theorem run_owned (owned : turn.io.Owned) (options : CommonOptions) (scope : NotificationScope)
    (outcome : BindOutcome) (handler : Handler) :
    (turn.run options scope outcome handler).io.Owned := by
  refine (run_pieces options scope outcome handler turn).keeps (fun turn => turn.io.Owned) ?_ owned
  intro before after piece owned
  rcases piece.sort with internal | piece
  · exact internal.owned owned
  · exact piece.owned owned

end Turn

/-- What happens outside leaves the peer table and the pending requests alone. -/
theorem Accepts.requests {state state' : State} {input : Input} {events : List Event}
    (accepts : Accepts state input events state') :
    state'.io.peers = state.io.peers ∧
      state'.io.requestManager.pendingRequests = state.io.requestManager.pendingRequests := by
  cases accepts with
  | requestExpires expires => exact ⟨rfl, (RequestManager.expire?_eq_some expires).1⟩
  | _ => exact ⟨rfl, rfl⟩

theorem step_owned {options : CommonOptions} {state state' : State} {label : Label}
    {events : List Event} (owned : state.io.Owned)
    (step : (system options).step? state label = some (state', events)) : state'.io.Owned := by
  cases Program.step_of_eq_some step with
  | handler queued outcome =>
      exact Turn.run_owned owned options _ outcome _
  | job queued verdict => exact owned
  | delayed idle due => exact owned
  | input accepted =>
      obtain ⟨peers, pending⟩ := (accepts_of_eq_some accepted).requests
      intro request listed
      rw [pending] at listed
      rw [peers]
      exact owned request listed

theorem run_owned {options : CommonOptions} {permitted : State → Label → Prop}
    {log : List Event} {state : State} (run : Run (system options) permitted initial log state) :
    state.io.Owned :=
  run.invariant_state (fun _ listed => by cases listed) fun owned _ step => step_owned owned step

/-! ## Every call ends in one callback -/

/-- A queued handler of `async_request` for the given call. -/
def Handler.requests (call : Nat) : Handler → Bool
  | .request other _ _ => other == call
  | _ => false

/-- A queued callback of the given call. -/
def Job.calls (call : Nat) : Job → Bool
  | .requestCallback other _ _ => other == call
  | _ => false

def Event.issues (call : Nat) : Event → Bool
  | .requestIssued other => other == call
  | _ => false

def Event.delivers (call : Nat) : Event → Bool
  | .requestCallback other _ _ => other == call
  | _ => false

/-- The requests of the given call that are pending. -/
def Io.pendingOf (call : Nat) (io : Io) : Nat :=
  io.requestManager.pendingRequests.entries.countP fun request => request.2.callback == call

namespace Turn

variable {before after turn : Turn}

/-- The pending requests and queued callbacks of a call. -/
def owed (call : Nat) (turn : Turn) : Nat :=
  turn.io.pendingOf call + turn.jobs.countP (Job.calls call)

/-- A piece of a handler that neither makes nor forgets a call. -/
structure Keeps (call : Nat) (before after : Turn) : Prop where
  owed : after.owed call = before.owed call
  posts : Appends (fun handler => handler.requests call = false) before.posts after.posts
  events : Appends (fun event => event.issues call = false ∧ event.delivers call = false)
    before.events after.events

namespace Keeps

theorem refl (call : Nat) (turn : Turn) : Keeps call turn turn := ⟨rfl, .refl _, .refl _⟩

theorem trans {call : Nat} {first second third : Turn} (left : Keeps call first second)
    (right : Keeps call second third) : Keeps call first third :=
  ⟨right.owed.trans left.owed, left.posts.trans right.posts, left.events.trans right.events⟩

end Keeps

theorem Internal.keeps (internal : Internal before after) (call : Nat) :
    Keeps call before after := by
  refine ⟨?_, internal.posts.mono ?_, internal.events.mono ?_⟩
  · obtain ⟨more, sent, ofMore⟩ := internal.jobs
    have none : more.countP (Job.calls call) = 0 := by
      rw [List.countP_eq_zero]
      intro job member called
      have internal := ofMore job member
      cases job <;> trivial
    rw [owed, owed, Io.pendingOf, internal.requestManager, sent, List.countP_append, none]
    rfl
  · intro handler internal
    cases handler <;> trivial
  · intro event internal
    cases event <;> first | exact ⟨rfl, rfl⟩ | cases internal

/-- A completed request leaves the table, and its callback is queued. -/
theorem request_keeps {call : RequestManager Nat Nat → RequestTurn Nat Nat}
    {address : Nat × PendingRequest Nat → Bool} {errorCode : ErrorCode} {data : Option Bytes}
    (completes : call turn.io.requestManager =
      turn.io.requestManager.completeWhere address errorCode data) (caller : Nat) :
    Keeps caller turn (turn.request call) := by
  refine ⟨?_, .map ?_ _, .refl _⟩
  · have split := List.countP_eq_countP_filter_add
      turn.io.requestManager.pendingRequests.entries
      (fun request => request.2.callback == caller) address
    have called : (Job.calls caller) ∘ (fun completion : Completion Nat =>
        Job.requestCallback completion.callback completion.errorCode completion.data) =
        fun completion => completion.callback == caller := rfl
    have same : (fun completion : Completion Nat => completion.callback == caller) ∘
        (fun request : Nat × PendingRequest Nat =>
          (⟨request.1, request.2.callback, errorCode, data⟩ : Completion Nat)) =
        fun request => request.2.callback == caller := rfl
    simp only [owed, Io.pendingOf, Turn.request, completes, RequestManager.completeWhere,
      Ledger.remove, Ledger.addressed, List.countP_append, List.countP_map, called, same, split]
    omega
  · intro timer _
    rfl

/-- The handler of `async_request` turns the call into a pending request or a
queued callback. -/
theorem onRequest_owed (call caller id : Nat) (data : Bytes) (turn : Turn) :
    (turn.onRequest caller id data).owed call =
      turn.owed call + if caller = call then 1 else 0 := by
  unfold onRequest
  split
  · simp only [sendRequest, owed, Io.pendingOf, emit, post, RequestManager.add,
      Ledger.entries_issue, List.countP_append, List.countP_singleton, beq_iff_eq]
    omega
  · simp only [enqueue, owed, List.countP_append, List.countP_singleton, Job.calls, beq_iff_eq]
    omega

theorem onRequest_posts (call caller id : Nat) (data : Bytes) (turn : Turn) :
    Appends (fun handler => handler.requests call = false) turn.posts
      (turn.onRequest caller id data).posts := by
  unfold onRequest
  split
  · refine .single ?_ _
    rfl
  · exact .refl _

theorem onRequest_events (call caller id : Nat) (data : Bytes) (turn : Turn) :
    Appends (fun event => event.issues call = false ∧ event.delivers call = false) turn.events
      (turn.onRequest caller id data).events := by
  unfold onRequest
  split
  · refine .single ?_ _
    exact ⟨rfl, rfl⟩
  · exact .refl _

/-- A peer's handler reports and records nothing about calls. -/
theorem runPeer_keeps (call : Nat) (options : CommonOptions) (ref : PeerRef)
    (handler : PeerHandler) (turn : Turn) :
    Keeps call turn (turn.runPeer options ref handler) := by
  unfold runPeer
  split
  · exact .refl call turn
  · refine ⟨?_, .map ?_ _, .append ?_ _⟩
    · simp only [owed, Io.pendingOf, List.countP_append, List.countP_map]
      have signals : ∀ (slots : Slots) (sent : List Signal),
          sent.countP (Job.calls call ∘ Job.signal slots) = 0 := by
        intro slots sent
        rw [List.countP_eq_zero]
        intro signal _ called
        cases called
      have closed : ∀ called : Bool,
          (if called then ref.peerClosed else []).countP (Job.calls call) = 0 := by
        intro called
        cases called <;> cases ref <;> rfl
      rw [signals, closed]
      rfl
    · intro posted _
      rfl
    · intro event
      unfold PeerRef.framesRead
      split
      · intro member
        rw [List.mem_singleton.mp member]
        exact ⟨rfl, rfl⟩
      · simp

theorem PeerPiece.keeps {options : CommonOptions} {scope : NotificationScope}
    {handler : Handler} {start : Turn} {call : Nat}
    (piece : PeerPiece options scope handler start before after)
    (other : handler.requests call = false) : Keeps call before after := by
  cases piece with
  | complete completes earned => exact request_keeps completes call
  | push id frame =>
      refine ⟨rfl, .single ?_ _, .refl _⟩
      rfl
  | release own listed completed =>
      refine ⟨rfl, .single ?_ _, .refl _⟩
      rfl
  | erase own completed => exact ⟨rfl, .refl _, .refl _⟩
  | dismiss own completed =>
      refine ⟨rfl, .map ?_ _, .refl _⟩
      intro id _
      rfl
  | @send caller id data turn own listed =>
      subst own
      refine ⟨?_, .single ?_ _, .single ?_ _⟩
      · simp only [Handler.requests] at other
        simp [sendRequest, owed, Io.pendingOf, emit, post, RequestManager.add, other]
      · rfl
      · exact ⟨rfl, rfl⟩
  | @refuse caller id data turn own =>
      subst own
      refine ⟨?_, .refl _, .refl _⟩
      simp only [Handler.requests] at other
      simp [enqueue, owed, Job.calls, other]
  | speak own => exact runPeer_keeps call options _ _ _
  | create own current =>
      refine ⟨rfl, .single ?_ _, .single ?_ _⟩
      · rfl
      · exact ⟨rfl, rfl⟩

/-- What a handler does to a call: only its own handler makes it owed. -/
theorem run_keeps (call : Nat) (options : CommonOptions) (scope : NotificationScope)
    (outcome : BindOutcome) (handler : Handler) (turn : Turn) :
    (turn.run options scope outcome handler).owed call =
        turn.owed call + (if handler.requests call then 1 else 0) ∧
      Appends (fun handler => handler.requests call = false) turn.posts
        (turn.run options scope outcome handler).posts ∧
      Appends (fun event => event.issues call = false ∧ event.delivers call = false) turn.events
        (turn.run options scope outcome handler).events := by
  cases own : handler.requests call with
  | true =>
      cases handler with
      | request caller id data =>
          refine ⟨?_, onRequest_posts call caller id data turn,
            onRequest_events call caller id data turn⟩
          obtain rfl : caller = call := by simpa [Handler.requests] using own
          rw [run, onRequest_owed]
          simp
      | _ => cases own
  | false =>
      have keeps : Keeps call turn (turn.run options scope outcome handler) := by
        refine (run_pieces options scope outcome handler turn).effect (.refl call) .trans ?_
        intro before after piece
        rcases piece.sort with internal | piece
        · exact internal.keeps call
        · exact piece.keeps own
      exact ⟨keeps.owed, keeps.posts, keeps.events⟩

end Turn

/-- Where a call still is: its handler is queued, its request is pending, or its
callback is queued. -/
def State.places (call : Nat) (state : State) : Nat :=
  state.handlers.countP (Handler.requests call) + state.io.pendingOf call +
    state.jobs.countP (Job.calls call)

theorem countP_eq_zero_of_forall {α : Type} {test : α → Bool} {list : List α}
    (none : ∀ element ∈ list, test element = false) : list.countP test = 0 :=
  List.countP_eq_zero.mpr fun element member => by simp [none element member]

theorem Job.calls_of_isSession {job : Job} (session : job.isSession = true) (call : Nat) :
    job.calls call = false := by
  cases job <;> trivial

theorem SessionEffect.places {effect : Effect} (session : SessionEffect effect) (call : Nat) :
    effect.posts.countP (Handler.requests call) = 0 ∧
      effect.next.countP (Job.calls call) = 0 ∧ effect.jobs.countP (Job.calls call) = 0 ∧
      effect.events.countP (Event.issues call) = 0 ∧
      effect.events.countP (Event.delivers call) = 0 := by
  refine ⟨countP_eq_zero_of_forall fun handler member => ?_,
    countP_eq_zero_of_forall fun job member =>
      Job.calls_of_isSession (session.next job member) call,
    countP_eq_zero_of_forall fun job member =>
      Job.calls_of_isSession (session.jobs job member) call, ?_, ?_⟩
  · have posted := session.posts handler member
    cases handler <;> trivial
  · rw [session.events]
    rfl
  · rw [session.events]
    rfl

/-- A job delivers the callback it is, and no other job makes or delivers a call. -/
theorem perform_places (call : Nat) (dispatcher : Dispatcher) (job : Job) (verdict : Bool) :
    let effect := (perform dispatcher job verdict).2
    effect.posts.countP (Handler.requests call) = 0 ∧
      effect.next.countP (Job.calls call) = 0 ∧ effect.jobs.countP (Job.calls call) = 0 ∧
      effect.events.countP (Event.issues call) = 0 ∧
      effect.events.countP (Event.delivers call) = if job.calls call then 1 else 0 := by
  cases job with
  | signal slots signal =>
      cases slots with
      | accepted =>
          cases signal <;>
            simp [perform, slot, acceptedSlot, Handler.requests, Job.calls]
      | healthCheck probe =>
          simp only [perform, slot, healthCheckSlot]
          split
          · cases signal <;> simp [Handler.requests, Job.calls]
          · simp [Job.calls]
  | notify token notice =>
      simp only [perform]
      split
      · cases notice with
        | ready =>
            cases verdict <;>
              simp [notify, Handler.requests, Job.calls, Event.issues, Event.delivers]
        | _ => simp [notify, Job.calls, Event.issues, Event.delivers]
      · simp [Job.calls]
  | enqueuePeerErrorOccurred => simp [perform, Job.calls]
  | enqueuePeerClosed => simp [perform, Job.calls]
  | received =>
      simp only [perform, ifExposed]
      split <;> simp [Job.calls, Event.issues, Event.delivers]
  | requestReceived =>
      simp only [perform, ifExposed]
      split <;> simp [Job.calls, Event.issues, Event.delivers]
  | peerErrorOccurred =>
      simp only [perform, ifExposed]
      split <;> simp [Job.calls, Event.issues, Event.delivers]
  | peerClosed =>
      simp only [perform]
      split <;> simp [Job.calls, Event.issues, Event.delivers]
  | requestCallback caller errorCode data =>
      by_cases same : caller = call <;>
        simp [perform, Job.calls, Event.issues, Event.delivers, same]
  | _ => exact (perform_session rfl dispatcher verdict).places call

/-- A call from outside queues its handler, and nothing else outside moves a call. -/
theorem accepts_places (call : Nat) {state state' : State} {input : Input} {events : List Event}
    (accepts : Accepts state input events state') :
    state'.places call + events.countP (Event.delivers call) =
      state.places call + events.countP (Event.issues call) := by
  cases accepts with
  | asyncRequest caller id data =>
      by_cases same : caller = call <;>
        simp [State.places, post, Handler.requests, Event.issues, Event.delivers, same]
      omega
  | asyncStart => simp [State.places, enqueue, Job.calls]
  | asyncStop => simp [State.places, enqueue, Job.calls]
  | requestExpires expires =>
      have pending := (RequestManager.expire?_eq_some expires).1
      simp [State.places, post, Io.pendingOf, pending, Handler.requests]
  | destroy alive released =>
      have kept : ∀ ref : PeerRef,
          (state.jobs.filter fun job => !job.isOf ref).countP (Job.calls call) =
            state.jobs.countP (Job.calls call) := by
        intro ref
        rw [List.countP_filter]
        refine List.countP_congr fun job _ => ?_
        cases job <;> simp [Job.calls, Job.isOf]
      simp only [State.places, kept]
      rfl
  | _ =>
      simp only [State.places, post, List.countP_append, List.countP_singleton,
        Handler.requests, List.countP_nil]
      rfl

theorem step_places (call : Nat) {options : CommonOptions} {state state' : State} {label : Label}
    {events : List Event} (session : state.DelaysSession)
    (step : (system options).step? state label = some (state', events)) :
    state'.places call + events.countP (Event.delivers call) =
      state.places call + events.countP (Event.issues call) := by
  cases Program.step_of_eq_some step with
  | @handler handler rest queued outcome =>
      obtain ⟨owed, posts, silent⟩ := Turn.run_keeps call options
        state.dispatcher.notificationScope outcome handler { io := state.io }
      have unposted := countP_eq_zero_of_forall (posts.forall_mem (by simp))
      have unissued := countP_eq_zero_of_forall
        fun event member => (silent.forall_mem (by simp) event member).1
      have undelivered := countP_eq_zero_of_forall
        fun event member => (silent.forall_mem (by simp) event member).2
      simp only [Turn.owed, List.countP_nil, Nat.add_zero] at owed
      simp only [State.places, program, handle, queued, List.countP_append, List.countP_cons,
        unposted, unissued, undelivered]
      omega
  | @job job rest queued verdict =>
      obtain ⟨posts, next, jobs, issued, delivered⟩ :=
        perform_places call state.dispatcher job verdict
      simp only [State.places, program, queued, List.countP_append, List.countP_cons, posts, next,
        jobs, issued, delivered]
      omega
  | @delayed index job idle due =>
      have uncalled := Job.calls_of_isSession (session job (List.mem_of_getElem? due)) call
      simp [State.places, idle, uncalled]
  | input accepted => exact accepts_places call (accepts_of_eq_some accepted)

/-- In every run, the calls made are in one place each or have been called back. -/
theorem run_places (call : Nat) {options : CommonOptions} {permitted : State → Label → Prop}
    {log : List Event} {state : State} (run : Run (system options) permitted initial log state) :
    log.countP (Event.issues call) = state.places call + log.countP (Event.delivers call) := by
  induction run with
  | refl => rfl
  | next run permit step ih =>
      have stepped := step_places call (run_delaysSession run) step
      rw [List.countP_append, List.countP_append]
      omega

/-- A request to a peer that is not in the table fails at once. -/
theorem onRequest_absent {id : Nat} {turn : Turn} (absent : id ∉ turn.io.peers) (call : Nat)
    (data : Bytes) :
    turn.onRequest call id data = turn.enqueue (.requestCallback call .notConnected none) := by
  rw [Turn.onRequest, if_neg absent]

/-- Requests of a server never outlive or cross their connection.  At every
handler boundary each pending request carries the id of a peer in the table;
every call is in one place or has been called back once, and fails at once if its
peer is absent; and a success carries the payload of a response to that very
request, read on the connection to which the request was sent. -/
theorem requests_follow_connection (options : CommonOptions) {log : List Event} {state : State}
    (run : Run (system options) (fun _ _ => True) initial log state) :
    (∀ request ∈ state.io.requestManager.pendingRequests.entries,
      ∃ id ∈ state.io.peers, request.2.peerIdValue = some id) ∧
    (∀ call, log.countP (Event.issues call) =
      state.handlers.countP (Handler.requests call) + state.io.pendingOf call +
        state.jobs.countP (Job.calls call) + log.countP (Event.delivers call)) ∧
    (∀ call id data outcome, id ∉ state.io.peers →
      handle options state.dispatcher state.io (.request call id data) outcome =
        (state.io, { jobs := [.requestCallback call .notConnected none] })) ∧
    ∀ call data, .requestCallback call .success data ∈ log →
      ∃ requestId id payload, data = some payload ∧
        .requestSent call requestId.toNat id ∈ log ∧
        ∃ body, .frameRead (.accepted id) body ∈ log ∧ IsResponse body requestId payload := by
  refine ⟨run_owned run, fun call => run_places call run, fun call id data outcome absent => ?_,
    fun _ _ delivered => (run_backed run).events _ delivered rfl⟩
  have fails := @onRequest_absent id { io := state.io } absent call data
  simp only [handle, Turn.run, fails]
  rfl

/-- A peer is accepted and asked, and its response reaches the caller. -/
theorem requests_follow_connection_response :
    ∃ log state, Run (system {}) (fun _ _ => True) initial log state ∧
      .requestCallback 7 .success (some [5]) ∈ log ∧
      ∃ requestId id payload, some [5] = some payload ∧
        .requestSent 7 requestId.toNat id ∈ log ∧
        ∃ body, .frameRead (.accepted id) body ∈ log ∧ IsResponse body requestId payload := by
  let credentials : PeerCredentials := ⟨none, none, none⟩
  let body : Bytes := [5, 0, 0, 0, 0, 0, 0, 0, 1, 5]
  let handlers (count : Nat) : List Label := List.replicate count (.handler .succeeded)
  let jobs (count : Nat) : List Label := List.replicate count (.job true)
  let labels : List Label :=
    [.input .asyncStart] ++ jobs 2 ++ handlers 1 ++
      [.input (.acceptCompletes (.socket credentials))] ++ handlers 2 ++
      [.input (.asyncRequest 7 1 [1])] ++ handlers 2 ++
      [.input (.peerCompletes (.accepted 1) (.read .success [0, 0, 0, 10]))] ++ handlers 2 ++
      [.input (.peerCompletes (.accepted 1) (.read .success body))] ++ handlers 1 ++ jobs 4 ++
      handlers 4 ++ jobs 4
  let log : List Event :=
    [.accepted 1 credentials, .requestIssued 7, .requestSent 7 1 1, .frameRead (.accepted 1) body,
      .bound 1, .verifyPeer 1 credentials true, .peerConnected 1 credentials,
      .requestCallback 7 .success (some [5])]
  have computed : (Run.steps? (system {}) (fun _ _ => True) initial labels).map
      (fun result => ((), result.2)) = some ((), log) := by
    decide +kernel
  have ran : ∃ state, Run (system {}) (fun _ _ => True) initial log state ∧ () = () :=
    Run.of_view computed
  obtain ⟨state, run, _⟩ := ran
  have called : Event.requestCallback 7 .success (some [5]) ∈ log := by decide
  exact ⟨log, state, run, called, (requests_follow_connection {} run).2.2.2 7 (some [5]) called⟩

end UnixDomainStream.Server
