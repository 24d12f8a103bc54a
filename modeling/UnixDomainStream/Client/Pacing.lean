import UnixDomainStream.Client.Isolation
import UnixDomainStream.Client.Reports

/-!
# Calls that are served whole

Where no handler runs between the effects of a call, the handler that cleans up is queued
before any handler sees the new generation.  A request sent after the call then has its
timer's handler behind the cleanup, so that a timeout closes a connection only with the
token that the connection was begun with, and only behind its `connected`.
-/

namespace UnixDomainStream.Client

open Library

/-- No handler runs between the effects of a call. -/
def Whole (state : State) : Label → Prop
  | .handler _ => ∀ job ∈ state.jobs.head?, job.isPart = false
  | _ => True

instance (state : State) (label : Label) : Decidable (Whole state label) :=
  match label with
  | .handler _ => inferInstanceAs (Decidable (∀ job ∈ state.jobs.head?, job.isPart = false))
  | .job _ => .isTrue trivial
  | .delayed _ => .isTrue trivial
  | .input _ => .isTrue trivial

/-- A handler of a timer that was cancelled. -/
def Handler.Aborted (handler : Handler) : Prop :=
  ∀ timer, handler = .requestTimer timer → timer.errorCode = .operationAborted

namespace Turn

variable {turn : Turn}

theorem post_aborted {handler : Handler} (other : ∀ timer, handler ≠ .requestTimer timer)
    (turn : Turn) : Appends Handler.Aborted turn.posts (turn.post handler).posts := by
  refine .single ?_ _
  exact fun timer own => absurd own (other timer)

theorem request_aborted {call : RequestManager Nat Nat → RequestTurn Nat Nat}
    {address : Nat × PendingRequest Nat → Bool} {errorCode : ErrorCode}
    {data : Option Protocol.Bytes}
    (completes : call turn.io.requestManager =
      turn.io.requestManager.completeWhere address errorCode data) :
    Appends Handler.Aborted turn.posts (turn.request call).posts := by
  refine .map (fun timer listed other own => ?_) _
  cases own
  simp only [completes, RequestManager.completeWhere] at listed
  obtain ⟨wait, _, rfl⟩ := List.mem_map.mp listed
  rfl

theorem QuietPiece.aborted {handler : Handler} {before after : Turn}
    (piece : QuietPiece handler before after) :
    Appends Handler.Aborted before.posts after.posts := by
  cases piece with
  | fail completes error => exact request_aborted completes
  | closeSocket attempt =>
      refine .map (fun connect _ timer own => ?_) _
      cases own
  | push attempt frame => exact post_aborted (by simp) before
  | release _ _ => exact post_aborted (by simp) before
  | _ => exact .refl _

theorem Piece.aborted {options : CommonOptions} {scope : NotificationScope} {handler : Handler}
    {start before after : Turn} (piece : Piece options scope handler start before after) :
    Appends Handler.Aborted before.posts after.posts := by
  cases piece with
  | quiet piece => exact piece.aborted
  | respond own current => exact request_aborted rfl
  | report own => exact request_aborted rfl
  | send own current => exact post_aborted (by simp) _
  | speak own alive ran =>
      refine .map (fun posted _ timer own => ?_) _
      cases own
  | establish own => refine .trans (.single ?_ _) (.single ?_ _) <;> simp [Handler.Aborted]
  | _ => exact .refl _

/-- The handlers of timers that a handler queues are those of the requests it completed. -/
theorem run_aborted (options : CommonOptions) (scope : NotificationScope) (endpoint : Endpoint)
    (handler : Handler) (turn : Turn) :
    Appends Handler.Aborted turn.posts (turn.run options scope endpoint handler).posts :=
  (run_pieces options scope endpoint handler turn).keeps
    (fun after => Appends Handler.Aborted turn.posts after.posts)
    (fun piece aborted => aborted.trans piece.aborted) (.refl _)

end Turn

/-! ## Timers behind the cleanup -/

def Io.Pending (id : Nat) (io : Io) : Prop :=
  ∃ request, (id, request) ∈ io.requestManager.pendingRequests.entries

/-- A request's timer of an attempt has captured the token of the attempt, unless the
cleanup comes first; and its handler is behind the handler that reports `connected`. -/
structure State.Paced (attempt token : Nat) (state : State) : Prop where
  stamped : state.Stamped fun other captured => other = attempt → captured = token
  waits : state.io.peer = some attempt → ∀ id captured,
    (id, some captured) ∈ state.io.requestManager.waits → state.io.Pending id →
    captured = token ∨ ∃ handler ∈ state.handlers, handler.cleans = true
  queued : state.io.peer = some attempt → ∀ front timer back,
    state.handlers = front ++ .requestTimer timer :: back → timer.errorCode = .success →
    state.io.Pending timer.id →
    (∀ captured, timer.timeoutCallback = some captured →
      captured = token ∨ ∃ handler ∈ front, handler.cleans = true) ∧
    .connected ∉ posted attempt back

section

variable {options : CommonOptions} {state state' : State} {label : Label} {events : List Event}
  {handler : Handler} {rest : List Handler} {endpoint : Endpoint} {attempt token : Nat}

/-- A request that is pending after a handler was pending before, or is the one it sent; and
it is on the peer that the client had before. -/
theorem pending_handled {log : List Event} (single : state.io.Single log) {id : Nat}
    (current : (Turn.run options state.scope endpoint handler { io := state.io }).io.peer =
      some attempt)
    (pending : (Turn.run options state.scope endpoint handler { io := state.io }).io.Pending id) :
    state.io.peer = some attempt ∧
      (state.io.Pending id ∨ id = state.io.requestManager.nextRequestId) := by
  have sent := Turn.run_sent options state.scope endpoint handler { io := state.io }
  obtain ⟨request, pending⟩ := pending
  refine ⟨?_, (sent.pending _ pending).imp_left fun old => ⟨request, old⟩⟩
  have route : Turn.Route options state.scope attempt handler state.io
      (Turn.run options state.scope endpoint handler { io := state.io }) :=
    Turn.run_route single.exclusive endpoint handler
  cases route with
  | aside dropped adds peer =>
      rcases peer with same | ⟨_, other⟩
      · exact same.symm.trans current
      · exact absurd current other
  | born own connecting =>
      -- The client had no peer, and so no request.
      have absent := single.exclusive (by simp [connecting])
      have other : ∀ call data, handler ≠ .request call data := by simp [own]
      have unsent := Turn.run_unsent options state.scope endpoint other { io := state.io }
      obtain ⟨peer, present, _⟩ := single.pending _ (unsent.pending _ pending)
      exact absurd (absent.symm.trans present) (by simp)
  | spoke own alive adds peer => exact peer.symm.trans current
  | passed own current' => exact current'
  | timedOut own called enabled current' => exact current'
  | cleaned own current' => exact current'

/-- The handlers that the environment queues, and what they leave of the requests. -/
structure Posts (attempt : Nat) (state state' : State) (more : List Handler) : Prop where
  handlers : state'.handlers = state.handlers ++ more
  unreported : posted attempt more = []
  peer : state'.io.peer = state.io.peer
  pending : state'.io.requestManager.pendingRequests = state.io.requestManager.pendingRequests
  waits : ∀ wait ∈ state'.io.requestManager.waits, wait ∈ state.io.requestManager.waits
  timers : ∀ timer, .requestTimer timer ∈ more → more = [.requestTimer timer] ∧
    (timer.id, timer.timeoutCallback) ∈ state.io.requestManager.waits

theorem Accepts.posts (attempt : Nat) {input : Input}
    (accepts : Accepts state input events state') : ∃ more, Posts attempt state state' more := by
  have none : state'.handlers = state.handlers → state'.io.peer = state.io.peer →
      state'.io.requestManager = state.io.requestManager →
      ∃ more, Posts attempt state state' more := by
    intro handlers peer requests
    refine ⟨[], by simp [handlers], rfl, peer, by rw [requests], ?_, by simp⟩
    rw [requests]
    exact fun _ waits => waits
  cases accepts with
  | asyncStart => exact none rfl rfl rfl
  | asyncStop => exact none rfl rfl rfl
  | asyncInvalidateConnection => exact none rfl rfl rfl
  | destroy alive released => exact none rfl rfl rfl
  | @requestExpires requestId requestManager timer expires =>
      obtain ⟨pending, fewer, waited⟩ := RequestManager.expire?_eq_some expires
      refine ⟨[.requestTimer timer], rfl, rfl, rfl, pending, fewer, fun other listed => ?_⟩
      cases List.mem_singleton.mp listed
      exact ⟨rfl, waited⟩
  | _ =>
      refine ⟨[_], rfl, rfl, rfl, rfl, fun _ waits => waits, fun other listed => ?_⟩
      cases List.mem_singleton.mp listed

/-- A timer that waits has the number of a request that was sent. -/
theorem State.Tracked.old {id : Nat} {timeoutCallback : Option Nat} (tracked : state.Tracked)
    (waits : state.Waits id timeoutCallback) : id ≠ state.io.requestManager.nextRequestId := by
  have sent := (tracked.timely id timeoutCallback waits).1
  simp only [RequestManager.nextRequestId]
  omega

namespace State.Paced

/-- The handlers in front of a queued cleanup. -/
theorem waits_handled {log : List Event} (paced : state.Paced attempt token)
    (tracked : state.Tracked) (single : state.io.Single log)
    (cleaning : ∃ todo others, Cleaning state todo others)
    (whole : ∀ job ∈ state.jobs.head?, job.isPart = false)
    (queued : state.handlers = handler :: rest)
    (current : (Turn.run options state.scope endpoint handler { io := state.io }).io.peer =
      some attempt) {id captured : Nat}
    (waits : (id, some captured) ∈ (Turn.run options state.scope endpoint handler
      { io := state.io }).io.requestManager.waits)
    (pending : (Turn.run options state.scope endpoint handler { io := state.io }).io.Pending id) :
    captured = token ∨ ∃ cleaner ∈ rest, cleaner.cleans = true := by
  have sent := Turn.run_sent options state.scope endpoint handler { io := state.io }
  obtain ⟨before, numbered⟩ := pending_handled single current pending
  have other : handler.cleans = false := by
    cases cleans : handler.cleans with
    | false => rfl
    | true =>
        have free := (Turn.run_free options state.scope endpoint cleans { io := state.io }).2
        exact absurd (current.symm.trans free) (by simp)
  have behind : (∃ cleaner ∈ state.handlers, cleaner.cleans = true) →
      ∃ cleaner ∈ rest, cleaner.cleans = true := by
    rintro ⟨cleaner, listed, cleans⟩
    rw [queued] at listed
    rcases List.mem_cons.mp listed with rfl | later
    · simp [other] at cleans
    · exact ⟨cleaner, later, cleans⟩
  rcases sent.waits _ waits with old | ⟨new, _⟩
  · have known := numbered.resolve_right (tracked.old (.inl old))
    exact (paced.waits before id captured old known).imp_right behind
  · obtain rfl : captured = state.scope.generation := Option.some.inj (Prod.mk.inj new).2
    obtain ⟨connection, alive, _⟩ := tracked.linked attempt before
    have fits := tracked.stamped.io.connections attempt connection alive
    have own : connection.token = token :=
      paced.stamped.io.connections attempt connection alive rfl
    rcases fits.2 (.inr before) with coming | same
    · refine .inr (behind ?_)
      rcases coming with posted | ⟨job, listed, cleans⟩
      · exact posted
      · -- The part of a call would be at the head of the queue.
        obtain ⟨todo, others, cleaning⟩ := cleaning
        have part := Job.isPart_of_cleans cleans
        cases front : state.jobs with
        | nil => simp [front] at listed
        | cons first more =>
            have unpart := whole first (by simp [front])
            simp [cleaning.of_unpart front unpart job listed] at part
    · exact .inl (same.symm.trans own)

theorem queued_handled {log : List Event} (paced : state.Paced attempt token)
    (tracked : state.Tracked) (single : state.io.Single log)
    (queued : state.handlers = handler :: rest)
    (current : (Turn.run options state.scope endpoint handler { io := state.io }).io.peer =
      some attempt) {front back : List Handler} {timer : RequestTimer Nat}
    (split : rest ++ (Turn.run options state.scope endpoint handler { io := state.io }).posts =
      front ++ .requestTimer timer :: back)
    (expired : timer.errorCode = .success)
    (pending : (Turn.run options state.scope endpoint handler
      { io := state.io }).io.Pending timer.id) :
    (∀ captured, timer.timeoutCallback = some captured →
      captured = token ∨ ∃ cleaner ∈ front, cleaner.cleans = true) ∧
    .connected ∉ posted attempt back := by
  have aborted := (Turn.run_aborted options state.scope endpoint handler
    { io := state.io }).forall_mem (by simp)
  obtain ⟨before, numbered⟩ := pending_handled single current pending
  have unborn : posted attempt
      (Turn.run options state.scope endpoint handler { io := state.io }).posts = [] := by
    have route : Turn.Route options state.scope attempt handler state.io
        (Turn.run options state.scope endpoint handler { io := state.io }) :=
      Turn.run_route single.exclusive endpoint handler
    cases route with
    | born own connecting =>
        have absent := single.exclusive (by simp [connecting])
        exact absurd (absent.symm.trans before) (by simp)
    | aside dropped adds => exact adds.posts
    | spoke own alive adds => exact adds.posts
    | passed own current adds => exact adds.posts
    | timedOut own called enabled current adds => exact adds.posts
    | cleaned own current adds => exact adds.posts
  rcases List.append_eq_append_iff.mp split with ⟨more, _, posts⟩ | ⟨more, old, posts⟩
  · have listed : .requestTimer timer ∈
        (Turn.run options state.scope endpoint handler { io := state.io }).posts := by
      simp [posts]
    simp [aborted _ listed timer rfl] at expired
  · cases more with
    | nil =>
        have listed : .requestTimer timer ∈
            (Turn.run options state.scope endpoint handler { io := state.io }).posts := by
          rw [List.nil_append] at posts
          simp [← posts]
        simp [aborted _ listed timer rfl] at expired
    | cons first more =>
        rw [List.cons_append] at posts
        obtain ⟨rfl, rfl⟩ := List.cons.inj posts
        have place : state.handlers = (handler :: front) ++ .requestTimer timer :: more := by
          rw [queued, old, List.cons_append]
        have listed : .requestTimer timer ∈ state.handlers := by simp [place]
        have known := numbered.resolve_right (tracked.old (.inr ⟨timer.errorCode, listed⟩))
        obtain ⟨timely, heralded⟩ := paced.queued before _ timer more place expired known
        refine ⟨fun captured own => (timely captured own).imp_right ?_, ?_⟩
        · rintro ⟨cleaner, listed, cleans⟩
          rcases List.mem_cons.mp listed with rfl | later
          · have free := (Turn.run_free options state.scope endpoint cleans
              { io := state.io }).2
            exact absurd (current.symm.trans free) (by simp)
          · exact ⟨cleaner, later, cleans⟩
        · rw [posted_append, unborn, List.append_nil]
          exact heralded

/-- Handlers queued behind the others. -/
theorem queued_append (paced : state.Paced attempt token)
    (current : state.io.peer = some attempt) {more : List Handler}
    (unheralded : .connected ∉ posted attempt more)
    (timers : ∀ timer, .requestTimer timer ∈ more → timer.errorCode = .success →
      more = [.requestTimer timer] ∧ (state.io.Pending timer.id → ∀ captured,
        timer.timeoutCallback = some captured →
          captured = token ∨ ∃ handler ∈ state.handlers, handler.cleans = true))
    {front back : List Handler} {timer : RequestTimer Nat}
    (split : state.handlers ++ more = front ++ .requestTimer timer :: back)
    (expired : timer.errorCode = .success) (pending : state.io.Pending timer.id) :
    (∀ captured, timer.timeoutCallback = some captured →
      captured = token ∨ ∃ handler ∈ front, handler.cleans = true) ∧
    .connected ∉ posted attempt back := by
  have last : ∀ {early : List Handler}, more = early ++ .requestTimer timer :: back →
      early = [] ∧ back = [] := by
    intro early same
    have single := (timers timer (by simp [same]) expired).1
    rw [single] at same
    cases early with
    | nil => exact ⟨rfl, (List.cons.inj same).2.symm⟩
    | cons first early => simp at same
  rcases List.append_eq_append_iff.mp split with ⟨early, rfl, late⟩ | ⟨early, old, late⟩
  · obtain ⟨rfl, rfl⟩ := last late
    refine ⟨fun captured own => ?_, by simp⟩
    rw [List.append_nil]
    exact (timers timer (by simp [late]) expired).2 pending captured own
  · cases early with
    | nil =>
        rw [List.nil_append] at late
        obtain ⟨_, rfl⟩ := @last [] late.symm
        refine ⟨fun captured own => ?_, by simp⟩
        rw [List.append_nil] at old
        rw [← old]
        exact (timers timer (by simp [← late]) expired).2 pending captured own
    | cons first early =>
        rw [List.cons_append] at late
        obtain ⟨rfl, rfl⟩ := List.cons.inj late
        obtain ⟨timely, heralded⟩ := paced.queued current front timer early old expired pending
        refine ⟨timely, ?_⟩
        rw [posted_append, List.mem_append]
        exact not_or.mpr ⟨heralded, unheralded⟩

/-- What a queued timer carries is known when its handler runs. -/
theorem called (paced : state.Paced attempt token) (current : state.io.peer = some attempt)
    {timer : RequestTimer Nat} (queued : state.handlers = .requestTimer timer :: rest)
    {captured : Nat} (called : (state.io.requestManager.onTimer timer).2 = some captured) :
    captured = token ∧ .connected ∉ posted attempt rest := by
  obtain ⟨expired, own, pending⟩ := RequestManager.onTimer_called called
  obtain ⟨timely, heralded⟩ := paced.queued current [] timer rest queued expired pending
  refine ⟨(timely captured own).resolve_right ?_, heralded⟩
  rintro ⟨cleaner, listed, _⟩
  exact absurd listed List.not_mem_nil

theorem step {log : List Event} (paced : state.Paced attempt token) (tracked : state.Tracked)
    (backed : state.Backed log) (cleaning : ∃ todo others, Cleaning state todo others)
    (whole : Whole state label) (begun : attempt ≤ state.io.nextAttempt)
    (step : (system options).step? state label = some (state', events)) :
    state'.Paced attempt token := by
  have stamped := step_stamped paced.stamped (fun handler endpoint _ queued => ?_) step
  · refine ⟨stamped, ?_, ?_⟩
    · intro current id captured waits pending
      cases Program.step_of_eq_some step with
      | handler queued endpoint =>
          obtain comes := paced.waits_handled tracked backed.io cleaning whole queued current waits
            pending
          exact comes.imp_right fun ⟨cleaner, listed, cleans⟩ =>
            ⟨cleaner, List.mem_append_left _ listed, cleans⟩
      | job queued verdict =>
          refine (paced.waits current id captured waits pending).imp_right ?_
          rintro ⟨cleaner, listed, cleans⟩
          exact ⟨cleaner, List.mem_append_left _ listed, cleans⟩
      | delayed idle due => exact paced.waits current id captured waits pending
      | input accepted =>
          obtain ⟨more, posts⟩ := (accepts_of_eq_some accepted).posts attempt
          obtain ⟨request, pending⟩ := pending
          rw [posts.pending] at pending
          rw [posts.peer] at current
          refine (paced.waits current id captured (posts.waits _ waits) ⟨request, pending⟩).imp_right
            ?_
          rintro ⟨cleaner, listed, cleans⟩
          rw [posts.handlers]
          exact ⟨cleaner, List.mem_append_left _ listed, cleans⟩
    · intro current front timer back split expired pending
      cases Program.step_of_eq_some step with
      | handler queued endpoint =>
          exact paced.queued_handled tracked backed.io queued current split expired pending
      | @job job rest queued verdict =>
          have conveys := perform_conveys attempt state.dispatcher job verdict
          refine paced.queued_append current ?_ ?_ split expired pending
          · show .connected ∉ posted attempt (perform state.dispatcher job verdict).2.posts
            rw [conveys.posts, Option.mem_toList]
            cases job with
            | signal other captured sent =>
                simp only [Job.signalled?]
                split
                · exact sent.report?_ne_connected
                · simp
            | _ => simp [Job.signalled?]
          · intro timer listed
            exact absurd listed (perform_untimed state.dispatcher job verdict timer)
      | delayed idle due => exact paced.queued current front timer back split expired pending
      | input accepted =>
          obtain ⟨more, posts⟩ := (accepts_of_eq_some accepted).posts attempt
          obtain ⟨request, pending⟩ := pending
          rw [posts.pending] at pending
          rw [posts.peer] at current
          rw [posts.handlers] at split
          refine paced.queued_append current (by simp [posts.unreported]) ?_ split expired
            ⟨request, pending⟩
          intro timer listed _
          obtain ⟨alone, waited⟩ := posts.timers timer listed
          refine ⟨alone, fun pending captured own => ?_⟩
          exact paced.waits current timer.id captured (own ▸ waited) pending
  · obtain ⟨rest, front⟩ := List.head?_eq_some_iff.mp queued
    refine ⟨fun captured _ _ _ _ own => ?_, fun timer captured other timed called _ current own => ?_⟩
    · omega
    · subst own timed
      exact (paced.called current front called).1

end State.Paced

/-! ## The token of an attempt -/

theorem initial_paced (attempt : Nat) : initial.Paced attempt 0 :=
  ⟨initial_stamped _, by simp [initial], by simp [initial]⟩

/-- A new attempt has the token of the handler that begins it. -/
theorem State.Tracked.begins {log : List Event} (tracked : state.Tracked)
    (backed : state.Backed log) (unbegun : ¬ attempt ≤ state.io.nextAttempt)
    (begun : attempt ≤ state'.io.nextAttempt)
    (step : (system options).step? state label = some (state', events)) :
    ∃ token, state'.Paced attempt token ∧ state'.scope.isCurrent token = true := by
  have unborn : ∀ token, state.Stamped fun other captured => other = attempt → captured = token := by
    refine fun token => tracked.stamped.mono fun other captured fits own => ?_
    have bound := fits.1
    omega
  cases Program.step_of_eq_some step with
  | @handler handler rest queued endpoint =>
      by_cases connects : ∃ token, handler = .connect token
      · obtain ⟨token, rfl⟩ := connects
        have stamped := step_stamped (unborn token) (fun other _ _ front => ?_) step
        · have route : Turn.Route options state.scope attempt (.connect token) state.io
              (Turn.run options state.scope endpoint (.connect token) { io := state.io }) :=
            Turn.run_route backed.io.exclusive endpoint _
          have away : (Turn.run options state.scope endpoint (.connect token)
              { io := state.io }).io.peer ≠ some attempt := by
            have before : state.io.peer ≠ some attempt := fun current =>
              unbegun (tracked.numbered attempt (.inr current))
            cases route with
            | aside dropped adds peer =>
                rcases peer with same | ⟨_, other⟩
                · rw [same]
                  exact before
                · exact other
            | born own => cases own
            | spoke own => cases own
            | passed own => cases own
            | timedOut own => cases own
            | cleaned own => cases own
          have fresh : state.scope.isCurrent token = true := by
            by_contra stale
            have late : attempt ≤ (Turn.run options state.scope endpoint (.connect token)
              { io := state.io }).io.nextAttempt := begun
            simp only [Turn.run, Turn.onConnect, Bool.not_eq_true] at late stale
            simp only [stale] at late
            exact unbegun late
          exact ⟨token, ⟨stamped, fun current => absurd current away,
            fun current => absurd current away⟩, fresh⟩
        · rw [queued, List.head?_cons, Option.some.injEq] at front
          subst front
          refine ⟨fun captured own _ _ _ _ => ?_, fun timer captured other own => ?_⟩
          · cases own
            rfl
          · cases own
      · have same := Turn.run_begins options state.scope endpoint
          (fun token own => connects ⟨token, own⟩) { io := state.io }
        exact absurd (begun.trans (Nat.le_of_eq same)) unbegun
  | job queued verdict => exact absurd begun unbegun
  | delayed idle due => exact absurd begun unbegun
  | input accepted =>
      exact absurd (begun.trans (Nat.le_of_eq (accepts_of_eq_some accepted).attempts)) unbegun

end

end UnixDomainStream.Client
