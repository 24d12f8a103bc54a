import UnixDomainStream.Client.Connection

/-!
# Requests of a client

Every call to `async_request` is in one place: its handler is queued, its request is
pending, its callback is queued or its callback has been called.
-/

namespace UnixDomainStream.Client

open Library
open Protocol (Bytes)

/-- A queued handler of `async_request` for the given call. -/
def Handler.requests (call : Nat) : Handler → Bool
  | .request other _ => other == call
  | _ => false

/-- A queued callback of the given call. -/
def Job.calls (call : Nat) : Job → Bool
  | .requestCallback other _ _ => other == call
  | _ => false

def Event.issues (call : Nat) : Event → Bool
  | .requestIssued other => other == call
  | _ => false

def Event.delivers (call : Nat) : Event → Bool
  | .requestCallback other _ _ => other == call
  | _ => false

/-- The requests of the given call that are pending. -/
def Io.pendingOf (call : Nat) (io : Io) : Nat :=
  io.requestManager.pendingRequests.entries.countP fun request => request.2.callback == call

/-- An event that neither makes nor answers a call. -/
def Event.Aside (call : Nat) (event : Event) : Prop :=
  event.issues call = false ∧ event.delivers call = false

namespace Turn

variable {before after turn : Turn}

/-- The pending requests and queued callbacks of a call. -/
def owed (call : Nat) (turn : Turn) : Nat :=
  turn.io.pendingOf call + turn.jobs.countP (Job.calls call)

/-- A piece of a handler that neither makes nor forgets a call. -/
structure Keeps (call : Nat) (before after : Turn) : Prop where
  owed : after.owed call = before.owed call
  posts : Appends (fun handler => handler.requests call = false) before.posts after.posts
  events : Appends (Event.Aside call) before.events after.events

namespace Keeps

theorem refl (call : Nat) (turn : Turn) : Keeps call turn turn := ⟨rfl, .refl _, .refl _⟩

theorem trans {call : Nat} {first second third : Turn} (left : Keeps call first second)
    (right : Keeps call second third) : Keeps call first third :=
  ⟨right.owed.trans left.owed, left.posts.trans right.posts, left.events.trans right.events⟩

/-- Only the table of requests and the queues matter. -/
theorem of_eq {call : Nat} (pending : after.io.requestManager = before.io.requestManager)
    (jobs : after.jobs = before.jobs) (events : after.events = before.events)
    (posts : Appends (fun handler => handler.requests call = false) before.posts after.posts) :
    Keeps call before after := by
  refine ⟨?_, posts, ?_⟩
  · rw [Turn.owed, Turn.owed, Io.pendingOf, Io.pendingOf, pending, jobs]
  · rw [events]
    exact .refl _

theorem post {call : Nat} {handler : Handler} (keeps : Keeps call before after)
    (other : handler.requests call = false) : Keeps call before (after.post handler) := by
  refine keeps.trans ⟨rfl, .single ?_ _, .refl _⟩
  exact other

theorem enqueue {call : Nat} {job : Job} (keeps : Keeps call before after)
    (other : job.calls call = false) : Keeps call before (after.enqueue job) := by
  refine keeps.trans ⟨?_, .refl _, .refl _⟩
  simp [Turn.owed, Turn.enqueue, other]

end Keeps

/-- A completed request leaves the table, and its callback is queued. -/
theorem request_keeps {call : RequestManager Nat Nat → RequestTurn Nat Nat}
    {address : Nat × PendingRequest Nat → Bool} {errorCode : ErrorCode} {data : Option Bytes}
    (completes : call turn.io.requestManager =
      turn.io.requestManager.completeWhere address errorCode data) (caller : Nat) :
    Keeps caller turn (turn.request call) := by
  refine ⟨?_, .map ?_ _, .refl _⟩
  · have split := List.countP_eq_countP_filter_add
      turn.io.requestManager.pendingRequests.entries
      (fun request => request.2.callback == caller) address
    have called : (Job.calls caller) ∘ (fun completion : Completion Nat =>
        Job.requestCallback completion.callback completion.errorCode completion.data) =
        fun completion => completion.callback == caller := rfl
    have same : (fun completion : Completion Nat => completion.callback == caller) ∘
        (fun request : Nat × PendingRequest Nat =>
          (⟨request.1, request.2.callback, errorCode, data⟩ : Completion Nat)) =
        fun request => request.2.callback == caller := rfl
    simp only [owed, Io.pendingOf, Turn.request, completes, RequestManager.completeWhere,
      Ledger.remove, Ledger.addressed, List.countP_append, List.countP_map, called, same, split]
    omega
  · intro timer _
    rfl

theorem QuietPiece.keeps {handler : Handler} (piece : QuietPiece handler before after)
    (call : Nat) : Keeps call before after := by
  cases piece with
  | fail completes error => exact request_keeps completes call
  | closeSocket attempt =>
      refine .of_eq rfl rfl rfl (.map ?_ _)
      intro connect _
      rfl
  | disconnect => exact .of_eq rfl rfl rfl (.refl _)
  | push attempt frame => exact (Keeps.refl call before).post rfl
  | @release attempt _ _ _ =>
      have closed : Keeps call before (before.post (.peer attempt (.close false))) :=
        (Keeps.refl call before).post rfl
      exact closed.trans (.of_eq rfl rfl rfl (.refl _))
  | dropPeer _ _ => exact .of_eq rfl rfl rfl (.refl _)

/-- Only `send_request` makes a call owed. -/
theorem Piece.keeps {options : CommonOptions} {scope : NotificationScope} {handler : Handler}
    {start : Turn} {call : Nat} (other : handler.requests call = false)
    (piece : Piece options scope handler start before after) : Keeps call before after := by
  cases piece with
  | quiet piece => exact piece.keeps call
  | notify told => exact (Keeps.refl call before).enqueue rfl
  | respond own current => exact request_keeps rfl call
  | report own => exact request_keeps rfl call
  | refuse own =>
      subst own
      exact (Keeps.refl call before).enqueue other
  | send own current =>
      subst own
      refine ⟨?_, .single ?_ _, .single ?_ _⟩
      · simpa [Turn.owed, Io.pendingOf, emit, post, RequestManager.add, Ledger.entries_issue,
          Handler.requests] using other
      · rfl
      · exact ⟨rfl, rfl⟩
  | @speak attempt spoken connection result own alive ran =>
      refine ⟨?_, .map ?_ _, .append ?_ _⟩
      · have signals : (result.signals.map (Job.signal attempt connection.token)).countP
            (Job.calls call) = 0 := by
          simp [List.countP_eq_zero, Job.calls]
        simp only [owed, Io.pendingOf, List.countP_append, signals]
        rfl
      · intro posted _
        rfl
      · intro event
        unfold framesRead
        split
        · intro member
          rw [List.mem_singleton.mp member]
          exact ⟨rfl, rfl⟩
        · simp
  | connectFailed errorCode own =>
      refine Keeps.enqueue ?_ rfl
      exact .of_eq rfl rfl rfl (.refl _)
  | connect own => exact .of_eq rfl rfl rfl (.refl _)
  | establish own =>
      refine .of_eq rfl rfl rfl (.trans (.single ?_ _) (.single ?_ _)) <;> rfl

/-- `send_request` turns the call into a pending request or a queued callback. -/
theorem sendRequest_owes (call caller : Nat) (scope : NotificationScope) (data : Bytes)
    (turn : Turn) :
    (turn.sendRequest scope caller data).owed call =
        turn.owed call + (if caller = call then 1 else 0) ∧
      Appends (fun handler => handler.requests call = false) turn.posts
        (turn.sendRequest scope caller data).posts ∧
      Appends (Event.Aside call) turn.events (turn.sendRequest scope caller data).events := by
  unfold sendRequest
  split
  · refine ⟨?_, .refl _, .refl _⟩
    simp only [enqueue, owed, List.countP_append, List.countP_singleton, Job.calls, beq_iff_eq]
    omega
  · refine ⟨?_, .single ?_ _, .single ?_ _⟩
    · simp only [owed, Io.pendingOf, emit, post, RequestManager.add, Ledger.entries_issue,
        List.countP_append, List.countP_singleton, beq_iff_eq]
      omega
    · rfl
    · exact ⟨rfl, rfl⟩

/-- What a handler does to a call: only its own handler makes it owed. -/
theorem run_keeps (call : Nat) (options : CommonOptions) (scope : NotificationScope)
    (endpoint : Endpoint) (handler : Handler) (turn : Turn) :
    (turn.run options scope endpoint handler).owed call =
        turn.owed call + (if handler.requests call then 1 else 0) ∧
      Appends (fun handler => handler.requests call = false) turn.posts
        (turn.run options scope endpoint handler).posts ∧
      Appends (Event.Aside call) turn.events
        (turn.run options scope endpoint handler).events := by
  cases own : handler.requests call with
  | true =>
      cases handler with
      | request caller data =>
          have same : caller = call := by simpa [Handler.requests] using own
          have owes := sendRequest_owes call caller scope data turn
          rw [if_pos same] at owes
          exact owes
      | _ => cases own
  | false =>
      have keeps := (run_pieces options scope endpoint handler turn).effect (Keeps.refl call)
        Keeps.trans (Piece.keeps own)
      exact ⟨keeps.owed, keeps.posts, keeps.events⟩

end Turn

/-- Where a call still is: its handler is queued, its request is pending, or its
callback is queued. -/
def State.places (call : Nat) (state : State) : Nat :=
  state.handlers.countP (Handler.requests call) + state.io.pendingOf call +
    state.jobs.countP (Job.calls call)

/-- A job delivers the callback it is, and no other job makes or delivers a call. -/
theorem perform_places (call : Nat) (dispatcher : Dispatcher) (job : Job) (verdict : Bool) :
    let effect := (perform dispatcher job verdict).2
    effect.posts.countP (Handler.requests call) = 0 ∧
      effect.next.countP (Job.calls call) = 0 ∧ effect.jobs.countP (Job.calls call) = 0 ∧
      effect.events.countP (Event.issues call) = 0 ∧
      effect.events.countP (Event.delivers call) = if job.calls call then 1 else 0 := by
  cases job with
  | signal attempt token signal =>
      cases signal <;> simp [perform, slot, Handler.requests, Job.calls]
  | notify token notice =>
      simp only [perform]
      split
      · cases notice <;>
          simp [notify, Handler.requests, Job.calls, Event.issues, Event.delivers]
      · simp [Job.calls]
  | scheduleReconnect =>
      simp only [perform]
      split <;> simp [Job.calls]
  | reconnect generation =>
      simp only [perform]
      split <;> simp [Job.calls]
  | requestCallback caller errorCode data =>
      by_cases same : caller = call <;>
        simp [perform, Job.calls, Event.issues, Event.delivers, same]
  | _ => simp [perform, Handler.requests, Job.calls]

/-- The delayed jobs are reconnects. -/
def Job.Reconnects (job : Job) : Prop := ∃ generation, job = .reconnect generation

theorem perform_delayed (dispatcher : Dispatcher) (job : Job) (verdict : Bool) :
    ∀ later ∈ (perform dispatcher job verdict).2.delayed, later.Reconnects := by
  cases job with
  | reconnectDebounced =>
      intro later member
      exact ⟨_, List.mem_singleton.mp member⟩
  | signal attempt token signal => cases signal <;> simp [perform, slot]
  | notify token notice =>
      simp only [perform]
      split
      · cases notice <;> simp [notify]
      · simp
  | _ => simp [perform]

theorem run_delayed {options : CommonOptions} {permitted : State → Label → Prop}
    {log : List Event} {state : State} (run : Run (system options) permitted initial log state) :
    ∀ later ∈ state.delayed, later.Reconnects := by
  induction run with
  | refl => nofun
  | next _ _ step ih =>
      cases Program.step_of_eq_some step with
      | handler queued endpoint => exact ih
      | @job job rest queued verdict =>
          exact (Appends.append (perform_delayed _ job verdict) _).forall_mem ih
      | delayed idle due => exact fun later member => ih later (List.mem_of_mem_eraseIdx member)
      | input accepted =>
          have accepts := accepts_of_eq_some accepted
          cases accepts <;> exact ih

/-- A call from outside queues its handler, and nothing else outside moves a call. -/
theorem accepts_places (call : Nat) {state state' : State} {input : Input} {events : List Event}
    (accepts : Accepts state input events state') :
    state'.places call + events.countP (Event.delivers call) =
      state.places call + events.countP (Event.issues call) := by
  cases accepts with
  | asyncRequest caller data =>
      by_cases same : caller = call <;>
        simp [State.places, post, Handler.requests, Event.issues, Event.delivers, same]
      omega
  | asyncStart => simp [State.places, enqueue, Job.calls]
  | asyncStop => simp [State.places, enqueue, Job.calls]
  | asyncInvalidateConnection => simp [State.places, enqueue, Job.calls]
  | requestExpires expires =>
      have pending := (RequestManager.expire?_eq_some expires).1
      simp [State.places, post, Io.pendingOf, pending, Handler.requests]
  | destroy alive released =>
      have kept : ∀ attempt : Nat,
          (state.jobs.filter fun job => !job.isOf attempt).countP (Job.calls call) =
            state.jobs.countP (Job.calls call) := by
        intro attempt
        rw [List.countP_filter]
        refine List.countP_congr fun job _ => ?_
        cases job <;> simp [Job.calls, Job.isOf]
      simp only [State.places, kept]
      rfl
  | _ =>
      simp only [State.places, post, List.countP_append, List.countP_singleton,
        Handler.requests, List.countP_nil]
      rfl

theorem step_places (call : Nat) {options : CommonOptions} {state state' : State} {label : Label}
    {events : List Event} (delays : ∀ later ∈ state.delayed, later.Reconnects)
    (step : (system options).step? state label = some (state', events)) :
    state'.places call + events.countP (Event.delivers call) =
      state.places call + events.countP (Event.issues call) := by
  cases Program.step_of_eq_some step with
  | @handler handler rest queued endpoint =>
      obtain ⟨owed, posts, silent⟩ := Turn.run_keeps call options
        state.dispatcher.notificationScope endpoint handler { io := state.io }
      have unposted := posts.countP_eq fun _ other => other
      have unissued := silent.countP_eq fun _ aside => aside.1
      have undelivered := silent.countP_eq fun _ aside => aside.2
      simp only [Turn.owed, List.countP_nil, Nat.add_zero] at owed unposted unissued undelivered
      simp only [State.places, program, handle, queued, List.countP_append, List.countP_cons,
        unposted, unissued, undelivered]
      omega
  | @job job rest queued verdict =>
      obtain ⟨posts, next, jobs, issued, delivered⟩ :=
        perform_places call state.dispatcher job verdict
      simp only [State.places, program, queued, List.countP_append, List.countP_cons, posts, next,
        jobs, issued, delivered]
      omega
  | @delayed index job idle due =>
      obtain ⟨generation, rfl⟩ := delays job (List.mem_of_getElem? due)
      simp [State.places, idle, Job.calls]
  | input accepted => exact accepts_places call (accepts_of_eq_some accepted)

/-- In every run, the calls made are in one place each or have been called back. -/
theorem run_places (call : Nat) {options : CommonOptions} {permitted : State → Label → Prop}
    {log : List Event} {state : State} (run : Run (system options) permitted initial log state) :
    log.countP (Event.issues call) = state.places call + log.countP (Event.delivers call) := by
  induction run with
  | refl => rfl
  | next run permit step ih =>
      have stepped := step_places call (run_delayed run) step
      rw [List.countP_append, List.countP_append]
      omega

end UnixDomainStream.Client
