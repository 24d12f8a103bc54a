import UnixDomainStream.Client.Requests
import UnixDomainStream.Client.Tracking

/-!
# Sessions of a client

A `stop()` or an `invalidate_connection()` cuts a run in two.  What was begun before the
cut keeps a token from before it, which is stale when the first effects have been
performed; only a request that is sent before the cleanup and times out before it carries
a newer one.
-/

namespace UnixDomainStream.Client

open Library

/-- The attempt that a notification is about. -/
def Event.attempt? : Event → Option Nat
  | .connected attempt _ => some attempt
  | .peerVerificationFailed attempt _ => some attempt
  | .connectFailed attempt _ => some attempt
  | .closed attempt => some attempt
  | .errorOccurred attempt _ => some attempt
  | .received attempt _ => some attempt
  | .requestReceived attempt _ _ => some attempt
  | _ => none

/-- The next handler calls a timeout callback, which closes a connection from before the
cut with the current token, captured after it. -/
def State.overtakes (options : CommonOptions) (state cut : State) : Label → Bool
  | .handler _ =>
      match state.handlers with
      | .requestTimer timer :: _ =>
          match (state.io.requestManager.onTimer timer).2, state.io.peer with
          | some token, some attempt =>
              options.invalidateConnectionOnRequestError && attempt ≤ cut.io.nextAttempt &&
                cut.scope.generation < token && state.scope.capture == token
          | _, _ => false
      | _ => false
  | _ => false

section

variable {options : CommonOptions} {state state' : State} {label : Label} {events : List Event}

/-! ## Counters that advance -/

theorem perform_generation_le (dispatcher : Dispatcher) (job : Job) (verdict : Bool) :
    dispatcher.notificationScope.generation ≤
      (perform dispatcher job verdict).1.notificationScope.generation := by
  rw [perform_scope]
  cases job <;>
    simp [NotificationScope.start, NotificationScope.halt, NotificationScope.invalidate]

theorem step_generation_le (step : (system options).step? state label = some (state', events)) :
    state.scope.generation ≤ state'.scope.generation := by
  cases Program.step_of_eq_some step with
  | handler queued endpoint => exact Nat.le_refl _
  | job queued verdict => exact perform_generation_le _ _ verdict
  | delayed idle due => exact Nat.le_refl _
  | input accepted =>
      rw [State.scope, State.scope, (accepts_of_eq_some accepted).jobs.1]

theorem Accepts.attempts {input : Input} (accepts : Accepts state input events state') :
    state'.io.nextAttempt = state.io.nextAttempt := by
  cases accepts <;> rfl

theorem step_attempts_le (step : (system options).step? state label = some (state', events)) :
    state.io.nextAttempt ≤ state'.io.nextAttempt := by
  cases Program.step_of_eq_some step with
  | @handler handler rest queued endpoint =>
      exact (Turn.run_attempts options state.scope endpoint handler { io := state.io }).1
  | job queued verdict => exact Nat.le_refl _
  | delayed idle due => exact Nat.le_refl _
  | input accepted => exact Nat.le_of_eq (accepts_of_eq_some accepted).attempts.symm

/-- The timers that wait after a step waited before, or are of the request it sent. -/
theorem step_waits (step : (system options).step? state label = some (state', events))
    {id : Nat} {timeoutCallback : Option Nat} (waits : state'.Waits id timeoutCallback) :
    state.Waits id timeoutCallback ∨ timeoutCallback = some state.scope.capture := by
  cases Program.step_of_eq_some step with
  | @handler handler rest queued endpoint =>
      have sent := Turn.run_sent options state.scope endpoint handler { io := state.io }
      exact (State.waits_handled sent queued waits).imp_right fun new => new.2.1
  | job queued verdict => exact .inl (State.waits_performed waits)
  | delayed idle due => exact .inl waits
  | input accepted => exact .inl (State.waits_accepts (accepts_of_eq_some accepted) waits)

/-! ## Tokens from the past -/

/-- Every token was captured at a generation that has been reached. -/
structure State.Past (state : State) : Prop where
  stamped : state.Stamped fun _ token => token ≤ state.scope.generation
  timers : ∀ id token, state.Waits id (some token) → token ≤ state.scope.generation

theorem initial_past : initial.Past := by
  refine ⟨initial_stamped _, ?_⟩
  simp [State.Waits, initial]

/-- A timeout callback that is called belongs to a timer that waited. -/
theorem State.waits_of_called {timer : RequestTimer Nat} {token : Nat}
    (queued : state.handlers.head? = some (.requestTimer timer))
    (called : (state.io.requestManager.onTimer timer).2 = some token) :
    state.Waits timer.id (some token) := by
  have own := (RequestManager.onTimer_called called).2.1
  refine .inr ⟨timer.errorCode, ?_⟩
  rw [← own]
  exact List.mem_of_mem_head? queued

theorem State.Past.step (past : state.Past)
    (step : (system options).step? state label = some (state', events)) : state'.Past := by
  have later := step_generation_le step
  have stamped := step_stamped past.stamped (fun handler endpoint _ queued => ?_) step
  · refine ⟨stamped.mono fun _ token captured => captured.trans later, fun id token waits => ?_⟩
    rcases step_waits step waits with waited | new
    · exact (past.timers id token waited).trans later
    · cases new
      exact later
  · refine ⟨fun token own current _ _ => ?_, fun timer token attempt own called _ _ => ?_⟩
    · exact (NotificationScope.isCurrent_iff.mp current).2.ge
    · exact past.timers timer.id token (State.waits_of_called (own ▸ queued) called)

theorem run_past {permitted : State → Label → Prop} {log : List Event}
    (run : Run (system options) permitted initial log state) : state.Past :=
  run.invariant_state initial_past fun past _ step => past.step step

/-! ## Notifications -/

/-- A job notifies of an attempt only with the current token. -/
theorem perform_attempts {rule : Nat → Nat → Prop} {job : Job} (stamped : job.Stamped rule)
    (dispatcher : Dispatcher) (verdict : Bool) :
    ∀ event ∈ (perform dispatcher job verdict).2.events, ∀ attempt,
      event.attempt? = some attempt →
      ∃ token, rule attempt token ∧ dispatcher.notificationScope.isCurrent token = true := by
  cases job with
  | signal attempt token sent => cases sent <;> simp [perform, slot]
  | notify token notice =>
      simp only [perform]
      split
      case isTrue current =>
        cases notice with
        | verifyPeer attempt credentials captured => simp [notify, Event.attempt?]
        | scheduleReconnect => simp [notify]
        | _ =>
            simp only [notify, List.mem_singleton, forall_eq, Event.attempt?,
              Option.some.injEq]
            rintro other rfl
            exact ⟨token, stamped, current⟩
      case isFalse => simp
  | requestCallback call errorCode data => simp [perform, Event.attempt?]
  | _ => simp [perform]

namespace Turn

theorem Piece.silent {options : CommonOptions} {scope : NotificationScope} {handler : Handler}
    {start before after : Turn} (piece : Piece options scope handler start before after) :
    Appends (fun event => event.attempt? = none) before.events after.events := by
  cases piece with
  | quiet piece => cases piece <;> exact .refl _
  | send own current =>
      refine .single ?_ _
      rfl
  | speak own alive ran =>
      refine .append (fun event listed => ?_) _
      unfold framesRead at listed
      split at listed
      · rw [List.mem_singleton.mp listed]
        rfl
      · exact absurd listed List.not_mem_nil
  | _ => exact .refl _

/-- A handler notifies of nothing itself. -/
theorem run_silent (options : CommonOptions) (scope : NotificationScope) (endpoint : Endpoint)
    (handler : Handler) (turn : Turn) :
    Appends (fun event => event.attempt? = none) turn.events
      (turn.run options scope endpoint handler).events :=
  (run_pieces options scope endpoint handler turn).keeps
    (fun after => Appends (fun event : Event => event.attempt? = none) turn.events after.events)
    (fun piece silent => silent.trans piece.silent) (.refl _)

end Turn

/-! ## Beyond a cut -/

/-- What was begun before a cut has a token from before it, or one that is stale already; the
cut has advanced the generation, or is about to do so while the scope does not run. -/
structure State.Beyond (cut state : State) : Prop where
  past : state.Past
  attempts : cut.io.nextAttempt ≤ state.io.nextAttempt
  stamped : state.Stamped fun attempt token => attempt ≤ cut.io.nextAttempt →
    token ≤ cut.scope.generation ∨ token < state.scope.generation
  stale : cut.scope.generation < state.scope.generation ∨
    cut.scope.generation = state.scope.generation ∧ state.scope.running = false ∧
      ∃ rest, state.jobs = .invalidateScope :: rest

/-- The first effect of a call cuts the run. -/
theorem State.Past.cut {job : Job} {rest : List Job} {verdict : Bool} (past : state.Past)
    (queued : state.jobs = job :: rest) (cuts : job.isCall = true)
    (start : (state.performed rest job verdict).Past) :
    state.Beyond (state.performed rest job verdict) := by
  refine ⟨start, Nat.le_refl _, ?_, ?_⟩
  · refine State.Stamped.performed ?_ queued verdict
    refine past.stamped.mono ?_
    exact fun attempt token captured _ => .inl captured
  · cases job with
    | stop => exact .inr ⟨rfl, rfl, _, rfl⟩
    | invalidateConnection => exact .inl (Nat.lt_succ_self _)
    | _ => cases cuts

namespace State.Beyond

variable {cut : State}

/-- While the scope does not run, the jobs in front of the queue stay there. -/
theorem step_stale (beyond : cut.Beyond state)
    (step : (system options).step? state label = some (state', events)) :
    cut.scope.generation < state'.scope.generation ∨
      cut.scope.generation = state'.scope.generation ∧ state'.scope.running = false ∧
        ∃ rest, state'.jobs = .invalidateScope :: rest := by
  rcases beyond.stale with stale | ⟨same, halted, rest, front⟩
  · exact .inl (stale.trans_le (step_generation_le step))
  · cases Program.step_of_eq_some step with
    | handler queued endpoint =>
        refine .inr ⟨same, halted, ?_⟩
        dsimp only
        rw [front]
        exact ⟨_, rfl⟩
    | job queued verdict =>
        obtain ⟨rfl, rfl⟩ := List.cons.inj (front.symm.trans queued)
        refine .inl ?_
        rw [same]
        exact Nat.lt_succ_self _
    | delayed idle due => simp [front] at idle
    | input accepted =>
        obtain ⟨dispatcher, _, jobs⟩ := (accepts_of_eq_some accepted).jobs
        have kept : state'.scope = state.scope :=
          congrArg Dispatcher.notificationScope dispatcher
        rw [kept]
        refine .inr ⟨same, halted, ?_⟩
        rw [front] at jobs
        rcases jobs with jobs | jobs | jobs | jobs | ⟨attempt, jobs⟩
        · exact ⟨_, jobs⟩
        · exact ⟨_, jobs⟩
        · exact ⟨_, jobs⟩
        · exact ⟨_, jobs⟩
        · exact ⟨_, jobs⟩

theorem step (beyond : cut.Beyond state) (permit : state.overtakes options cut label = false)
    (step : (system options).step? state label = some (state', events)) : cut.Beyond state' := by
  refine ⟨beyond.past.step step, beyond.attempts.trans (step_attempts_le step), ?_,
    beyond.step_stale step⟩
  have stamped := step_stamped beyond.stamped (fun handler endpoint own queued => ?_) step
  · refine stamped.mono fun attempt token captured before => ?_
    exact (captured before).imp_right fun stale => stale.trans_le (step_generation_le step)
  · refine ⟨fun token _ _ _ _ before => ?_, fun timer token attempt timed called enabled current
      before => ?_⟩
    · have begun := beyond.attempts
      omega
    · subst timed
      have reached := beyond.past.timers timer.id token (State.waits_of_called queued called)
      obtain ⟨rest, front⟩ := List.head?_eq_some_iff.mp queued
      by_contra fresh
      simp only [not_or, Nat.not_le, Nat.not_lt] at fresh
      have same : state.scope.capture = token := Nat.le_antisymm fresh.2 reached
      simp [State.overtakes, own, front, called, current, enabled, before, fresh.1, same] at permit

/-- No notification is about an attempt from before the cut. -/
theorem notifies (beyond : cut.Beyond state)
    (step : (system options).step? state label = some (state', events)) :
    ∀ event ∈ events, ∀ attempt, event.attempt? = some attempt →
      cut.io.nextAttempt < attempt := by
  intro event listed attempt about
  cases Program.step_of_eq_some step with
  | @handler handler rest queued endpoint =>
      have silent := Turn.run_silent options state.scope endpoint handler { io := state.io }
      have none := silent.forall_mem (by simp) event listed
      simp [about] at none
  | @job job rest queued verdict =>
      have stamped := beyond.stamped.queued.jobs job (by simp [queued])
      obtain ⟨token, captured, current⟩ := perform_attempts stamped state.dispatcher verdict event
        listed attempt about
      obtain ⟨running, same⟩ := NotificationScope.isCurrent_iff.mp current
      rcases beyond.stale with stale | ⟨_, halted, _⟩
      · by_contra before
        have old := captured (Nat.le_of_not_lt before)
        have fresh : state.scope.generation = token := same
        omega
      · simp [halted] at running
  | delayed idle due => exact absurd listed List.not_mem_nil
  | input accepted =>
      cases accepts_of_eq_some accepted with
      | asyncRequest call data =>
          rw [List.mem_singleton.mp listed] at about
          cases about
      | _ => exact absurd listed List.not_mem_nil

end State.Beyond

theorem run_beyond {cut start : State} {log : List Event} (beyond : cut.Beyond start)
    (run : Run (system options) (fun state label => state.overtakes options cut label = false)
      start log state) :
    cut.Beyond state ∧ ∀ event ∈ log, ∀ attempt, event.attempt? = some attempt →
      cut.io.nextAttempt < attempt := by
  induction run with
  | refl => exact ⟨beyond, by simp⟩
  | next _ permit step ih =>
      refine ⟨ih.1.step permit step, fun event listed => ?_⟩
      exact (List.mem_append.mp listed).elim (ih.2 event) (ih.1.notifies step event)

/-! ## The requests pending at a cut -/

theorem State.CleanupComing.accepts {input : Input} (coming : state.CleanupComing)
    (accepts : Accepts state input events state') : state'.CleanupComing := by
  rcases coming with ⟨cleaner, posted, cleans⟩ | ⟨job, listed, cleans⟩
  · refine .inl ⟨cleaner, ?_, cleans⟩
    cases accepts <;> first | exact posted | exact List.mem_append_left _ posted
  · refine .inr ⟨job, ?_, cleans⟩
    rcases accepts.jobs.2.2 with jobs | jobs | jobs | jobs | ⟨attempt, jobs⟩
    · exact jobs ▸ listed
    · exact jobs ▸ List.mem_append_left _ listed
    · exact jobs ▸ List.mem_append_left _ listed
    · exact jobs ▸ List.mem_append_left _ listed
    · have other := Job.isOf_isPart (Job.isPart_of_cleans cleans) attempt
      rw [jobs]
      exact List.mem_filter.mpr ⟨listed, by simp [other]⟩

/-- The call has been made, and its request is pending no longer than until the cleanup. -/
structure State.Settling (call : Nat) (state : State) : Prop where
  unasked : state.handlers.countP (Handler.requests call) = 0
  settled : state.CleanupComing ∨ state.io.pendingOf call = 0

theorem State.Settling.step {call : Nat} {log : List Event} (settling : state.Settling call)
    (after : state'.Backed log)
    (step : (system options).step? state label = some (state', events))
    (unissued : events.countP (Event.issues call) = 0) : state'.Settling call := by
  obtain ⟨unasked, settled⟩ := settling
  cases Program.step_of_eq_some step with
  | @handler handler rest queued endpoint =>
      rw [queued, List.countP_cons] at unasked
      obtain ⟨owed, posts, _⟩ := Turn.run_keeps call options state.scope endpoint handler
        { io := state.io }
      have other : handler.requests call = false := by
        cases requests : handler.requests call with
        | false => rfl
        | true => simp [requests] at unasked
      refine ⟨?_, ?_⟩
      · have unposted := posts.countP_eq fun _ other => other
        show (rest ++ Turn.posts _).countP _ = 0
        rw [List.countP_append, unposted]
        simp only [List.countP_nil]
        omega
      · cases cleans : handler.cleans with
        | true =>
            -- The handler leaves no peer, and so no request.
            refine .inr (List.countP_eq_zero.mpr fun request pending => ?_)
            obtain ⟨attempt, current, _⟩ := after.io.pending request pending
            have free := Turn.run_free options state.scope endpoint cleans { io := state.io }
            exact absurd (.inr current) (not_tracks_of_free free attempt)
        | false =>
            refine settled.imp (fun coming => coming.handled queued cleans) fun absent => ?_
            have none : Turn.owed call { io := state.io } = 0 := by simp [Turn.owed, absent]
            rw [none, other] at owed
            exact (Nat.add_eq_zero_iff.mp owed).1
  | @job job rest queued verdict =>
      obtain ⟨posts, _⟩ := perform_places call state.dispatcher job verdict
      refine ⟨?_, settled.imp_left fun coming => coming.performed queued verdict⟩
      show (state.handlers ++ _).countP _ = 0
      rw [List.countP_append, unasked, Nat.zero_add]
      exact posts
  | delayed idle due =>
      refine ⟨unasked, settled.imp_left (Or.imp_right ?_)⟩
      rintro ⟨job, listed, _⟩
      simp [idle] at listed
  | input accepted =>
      have accepts := accepts_of_eq_some accepted
      refine ⟨?_, ?_⟩
      · cases accepts with
        | asyncRequest other data =>
            have different : (other == call) = false := by simpa [Event.issues] using unissued
            simp [post, unasked, Handler.requests, different]
        | asyncStart => exact unasked
        | asyncStop => exact unasked
        | asyncInvalidateConnection => exact unasked
        | destroy alive released => exact unasked
        | _ => simp [post, unasked, Handler.requests]
      · refine settled.imp (fun coming => coming.accepts accepts) fun absent => ?_
        cases accepts with
        | requestExpires expires =>
            have pending := (RequestManager.expire?_eq_some expires).1
            simpa [Io.pendingOf, post, pending] using absent
        | _ => exact absent

theorem run_settling {call : Nat} {log later : List Event} {start after : State}
    (run : Run (system options) (fun _ _ => True) initial log start)
    (settling : start.Settling call)
    (longer : Run (system options) (fun _ _ => True) start later after)
    (unissued : later.countP (Event.issues call) = 0) : after.Settling call := by
  induction longer with
  | refl => exact settling
  | next longer permit step ih =>
      rw [List.countP_append, Nat.add_eq_zero_iff] at unissued
      have backed := run_backed ((run.append longer).next permit step)
      exact (ih unissued.1).step backed step unissued.2

/-- The first effect of a call brings the cleanup on its way. -/
theorem State.Settling.cut {call : Nat} {job : Job} {rest : List Job}
    (queued : state.jobs = job :: rest) (cuts : job.isCall = true) (verdict : Bool)
    (unasked : state.handlers.countP (Handler.requests call) = 0) :
    (state.performed rest job verdict).Settling call := by
  refine ⟨?_, .inl (.inr ?_)⟩
  · obtain ⟨posts, _⟩ := perform_places call state.dispatcher job verdict
    show (state.handlers ++ _).countP _ = 0
    rw [List.countP_append, unasked, Nat.zero_add]
    exact posts
  · cases job with
    | stop => exact ⟨.postStop, by simp [State.performed, perform], rfl⟩
    | invalidateConnection =>
        exact ⟨.postInvalidateConnection, by simp [State.performed, perform], rfl⟩
    | _ => cases cuts

theorem performed_of_step {job : Job} {verdict : Bool} (head : state.jobs.head? = some job)
    (step : (system options).step? state (.job verdict) = some (state', events)) :
    ∃ rest, state.jobs = job :: rest ∧ state' = state.performed rest job verdict := by
  cases Program.step_of_eq_some step with
  | @job other rest queued verdict =>
      rw [queued, List.head?_cons, Option.some.injEq] at head
      subst head
      exact ⟨rest, queued, rfl⟩

/-- A `stop()` or an `invalidate_connection()` separates the sessions of a client, unless a
request that is sent while it is under way times out before its cleanup; and the requests
pending at it are answered once each, at the latest by the cleanup. -/
theorem separates_sessions (options : CommonOptions) {log : List Event} {cut start : State} {job : Job}
    {verdict : Bool} (run : Run (system options) (fun _ _ => True) initial log cut)
    (head : cut.jobs.head? = some job) (cuts : job.isCall = true)
    (step : (system options).step? cut (.job verdict) = some (start, events)) :
    (∀ later after, Run (system options)
        (fun state label => state.overtakes options cut label = false) start later after →
      ∀ event ∈ later, ∀ attempt, event.attempt? = some attempt →
        cut.io.nextAttempt < attempt) ∧
    ∀ later after, Run (system options) (fun _ _ => True) start later after →
      ∀ call, cut.io.pendingOf call = 1 →
        (log ++ events ++ later).countP (Event.issues call) = 1 →
        after.places call + (log ++ events ++ later).countP (Event.delivers call) = 1 ∧
          (¬ after.CleanupComing → after.jobs.countP (Job.calls call) +
            (log ++ events ++ later).countP (Event.delivers call) = 1) := by
  obtain ⟨rest, queued, rfl⟩ := performed_of_step head step
  have begun := run.next trivial step
  refine ⟨fun later after longer => ?_, fun later after longer call pending once => ?_⟩
  · exact (run_beyond ((run_past run).cut queued cuts (run_past begun)) longer).2
  · have before := run_places call run
    have placed := run_places call (begun.append longer)
    refine ⟨by omega, fun settled => ?_⟩
    simp only [List.countP_append] at once
    have unasked : cut.handlers.countP (Handler.requests call) = 0 := by
      rw [State.places] at before
      omega
    have settling := run_settling begun (State.Settling.cut queued cuts verdict unasked) longer
      (by rw [State.places] at before; omega)
    have unpending := settling.settled.resolve_left settled
    have unasked' := settling.unasked
    rw [State.places] at placed
    simp only [List.countP_append] at placed ⊢
    omega

/-- A request times out after an `invalidate_connection()` but was sent before it; the
connection that is closed so is not notified of, and the next one is. -/
theorem separates_sessions_invalidated :
    ∃ cut log start events after later,
      Run (system {}) (fun _ _ => True) initial log cut ∧
      cut.jobs.head? = some .invalidateConnection ∧
      (system {}).step? cut (.job true) = some (start, events) ∧ cut.io.pendingOf 7 = 1 ∧
      Run (system {}) (fun state label => state.overtakes {} cut label = false) start later
        after ∧ .connected 2 ⟨none, none, none⟩ ∈ later ∧
      (∀ event ∈ later, ∀ attempt, event.attempt? = some attempt →
        cut.io.nextAttempt < attempt) ∧
      (log ++ events ++ later).countP (Event.delivers 7) = 1 := by
  let credentials : PeerCredentials := ⟨none, none, none⟩
  let handlers (count : Nat) : List Label := List.replicate count (.handler .constructed)
  let jobs (count : Nat) : List Label := List.replicate count (.job true)
  let first : List Label :=
    [.input .asyncStart] ++ jobs 2 ++ handlers 1 ++
      [.input (.connectCompletes 1 (.socket credentials))] ++ handlers 1 ++ jobs 1 ++
      handlers 3 ++ jobs 1 ++ [.input (.asyncRequest 7 [1])] ++ handlers 1 ++
      [.input .asyncInvalidateConnection]
  let second : List Label :=
    [.input (.requestExpires 1)] ++ handlers 2 ++ jobs 4 ++ handlers 9 ++ jobs 2 ++
      handlers 1 ++ jobs 3 ++ [.delayed 0] ++ jobs 2 ++ handlers 1 ++
      [.input (.connectCompletes 2 (.socket credentials))] ++ handlers 1 ++ jobs 1 ++
      handlers 3 ++ jobs 1
  have begins : (Run.steps? (system {}) (fun _ _ => True) initial first).isSome = true := by
    decide +kernel
  let ahead := Run.result (system {}) (fun _ _ => True) initial first
  let entered := ((system {}).step? ahead.1 (.job true)).getD ahead
  have enters : ((system {}).step? ahead.1 (.job true)).isSome = true := by decide +kernel
  have goesOn : (Run.steps? (system {})
      (fun state label => state.overtakes {} ahead.1 label = false) entered.1 second).isSome =
        true := by
    decide +kernel
  let behind := Run.result (system {})
    (fun state label => state.overtakes {} ahead.1 label = false) entered.1 second
  have seen : ahead.1.jobs.head? = some .invalidateConnection ∧ ahead.1.io.pendingOf 7 = 1 ∧
      behind.1.jobs = [] ∧ behind.1.handlers = [] ∧ .connected 2 credentials ∈ behind.2 ∧
      (ahead.2 ++ entered.2 ++ behind.2).countP (Event.issues 7) = 1 := by decide +kernel
  have run : Run (system {}) (fun _ _ => True) initial ahead.2 ahead.1 := Run.of_isSome begins
  have step : (system {}).step? ahead.1 (.job true) = some entered :=
    (Option.getD_of_ne_none (Option.isSome_iff_ne_none.mp enters) ahead).symm
  have longer : Run (system {}) (fun state label => state.overtakes {} ahead.1 label = false)
      entered.1 behind.2 behind.1 := Run.of_isSome goesOn
  clear goesOn enters
  clear_value behind entered ahead
  obtain ⟨head, pending, noJob, noHandler, connected, once⟩ := seen
  obtain ⟨separated, answered⟩ := separates_sessions {} run head rfl step
  have settled : ¬ behind.1.CleanupComing := by
    rintro (⟨cleaner, listed, _⟩ | ⟨job, listed, _⟩)
    · simp [noHandler] at listed
    · simp [noJob] at listed
  have delivered := (answered behind.2 behind.1 (longer.mono fun _ => trivial) 7 pending once).2
    settled
  rw [noJob, List.countP_nil, Nat.zero_add] at delivered
  exact ⟨ahead.1, ahead.2, entered.1, entered.2, behind.1, behind.2, run, head, step, pending,
    longer, connected, separated _ _ longer, delivered⟩

/-- A request that is sent and times out between two effects of `invalidate_connection()`:
`closed` of the connection from before it is delivered after it. -/
theorem closed_after_invalidate :
    ∃ cut log start events after later,
      Run (system {}) (fun _ _ => True) initial log cut ∧
      cut.jobs.head? = some .invalidateConnection ∧
      (system {}).step? cut (.job true) = some (start, events) ∧
      Run (system {}) (fun _ _ => True) start later after ∧
      cut.io.peer = some 1 ∧ .closed 1 ∈ later := by
  let credentials : PeerCredentials := ⟨none, none, none⟩
  let handlers (count : Nat) : List Label := List.replicate count (.handler .constructed)
  let jobs (count : Nat) : List Label := List.replicate count (.job true)
  let first : List Label :=
    [.input .asyncStart] ++ jobs 2 ++ handlers 1 ++
      [.input (.connectCompletes 1 (.socket credentials))] ++ handlers 1 ++ jobs 1 ++
      handlers 3 ++ jobs 1 ++ [.input .asyncInvalidateConnection]
  let second : List Label :=
    [.input (.asyncRequest 7 [1])] ++ handlers 1 ++ [.input (.requestExpires 1)] ++
      handlers 2 ++ jobs 4
  have begins : (Run.steps? (system {}) (fun _ _ => True) initial first).isSome = true := by
    decide +kernel
  let ahead := Run.result (system {}) (fun _ _ => True) initial first
  let entered := ((system {}).step? ahead.1 (.job true)).getD ahead
  have enters : ((system {}).step? ahead.1 (.job true)).isSome = true := by decide +kernel
  have goesOn : (Run.steps? (system {}) (fun _ _ => True) entered.1 second).isSome = true := by
    decide +kernel
  let behind := Run.result (system {}) (fun _ _ => True) entered.1 second
  have seen : ahead.1.jobs.head? = some .invalidateConnection ∧ ahead.1.io.peer = some 1 ∧
      .closed 1 ∈ behind.2 := by decide +kernel
  have run : Run (system {}) (fun _ _ => True) initial ahead.2 ahead.1 := Run.of_isSome begins
  have step : (system {}).step? ahead.1 (.job true) = some entered :=
    (Option.getD_of_ne_none (Option.isSome_iff_ne_none.mp enters) ahead).symm
  have longer : Run (system {}) (fun _ _ => True) entered.1 behind.2 behind.1 :=
    Run.of_isSome goesOn
  clear goesOn enters
  clear_value behind entered ahead
  obtain ⟨head, current, closed⟩ := seen
  exact ⟨ahead.1, ahead.2, entered.1, entered.2, behind.1, behind.2, run, head, step, longer,
    current, closed⟩

end

end UnixDomainStream.Client
