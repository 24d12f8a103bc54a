import UnixDomainStream.Client.Moves

/-!
# What the client is doing

Until a cleanup comes, the attempt that the client connects or is connected with carries
the current token, and so do its pending requests.  The connect is outstanding or a step
that follows it is queued; the peer is open, or the end of it is queued.
-/

namespace UnixDomainStream.Client

open Library

namespace State

variable (state : State)

abbrev scope : NotificationScope := state.dispatcher.notificationScope

/-- The I/O handler of a `stop()` or an `invalidate_connection()` has still to run. -/
def CleanupComing : Prop :=
  (∃ handler ∈ state.handlers, handler.cleans = true) ∨ ∃ job ∈ state.jobs, job.cleans = true

/-- The connect of the attempt is outstanding, or one of the steps that follow it is queued. -/
def Pursued (attempt : Nat) : Prop :=
  (∃ connect ∈ state.io.connects, connect.attempt = attempt) ∨
    (∃ handler ∈ state.handlers, handler.pursues attempt = true) ∨
    ∃ job ∈ state.jobs, job.pursues attempt = true

/-- What follows when the socket of the attempt's peer is closed is queued. -/
def Closing (attempt : Nat) : Prop :=
  (∃ token, .signal attempt token .closed ∈ state.jobs) ∨
    ∃ token, .closed attempt token ∈ state.handlers

/-- The attempt's peer object is alive, and open unless its end is on its way. -/
def Linked (attempt : Nat) : Prop :=
  ∃ connection, state.io.connections attempt = some connection ∧
    (connection.peer.isOpen = true ∨ state.Closing attempt)

/-- The timer of a request waits, or its handler is queued. -/
def Waits (id : Nat) (timeoutCallback : Option Nat) : Prop :=
  (id, timeoutCallback) ∈ state.io.requestManager.waits ∨
    ∃ errorCode, .requestTimer ⟨id, errorCode, timeoutCallback⟩ ∈ state.handlers

/-- A stamp of an attempt that was begun, and of the current generation if the client
connects or is connected with it. -/
def Fits (attempt token : Nat) : Prop :=
  attempt ≤ state.io.nextAttempt ∧
    (state.io.tracks attempt → state.CleanupComing ∨ token = state.scope.generation)

/-- The timer of a request that was sent, and of the current generation if it is pending. -/
def Timely (id : Nat) (timeoutCallback : Option Nat) : Prop :=
  id ≤ state.io.requestManager.pendingRequests.issued ∧
    ∀ request, (id, request) ∈ state.io.requestManager.pendingRequests.entries →
      state.CleanupComing ∨ timeoutCallback = some state.scope.generation

/-- The invariant of the connection. -/
structure Tracked : Prop where
  idle : state.scope.running = false → state.CleanupComing ∨ state.io.free
  numbered : ∀ attempt, state.io.tracks attempt → attempt ≤ state.io.nextAttempt
  stamped : state.Stamped state.Fits
  pursued : ∀ attempt, state.io.connectingSocket = some attempt →
    state.CleanupComing ∨ state.Pursued attempt
  linked : ∀ attempt, state.io.peer = some attempt → state.Linked attempt
  timely : ∀ id timeoutCallback, state.Waits id timeoutCallback →
    state.Timely id timeoutCallback

end State

theorem not_tracks_of_free {io : Io} (free : io.free) (attempt : Nat) : ¬ io.tracks attempt := by
  rintro (connecting | current)
  · simp [free.1] at connecting
  · simp [free.2] at current

theorem initial_tracked : initial.Tracked where
  idle _ := .inr ⟨rfl, rfl⟩
  numbered attempt tracked := absurd tracked (not_tracks_of_free ⟨rfl, rfl⟩ attempt)
  stamped := initial_stamped _
  pursued := by simp [initial]
  linked := by simp [initial]
  timely := by simp [State.Waits, initial]

/-! ## Handlers -/

section

variable {state : State} {handler : Handler} {rest : List Handler} {turn : Turn}

/-- The state after a handler. -/
def State.handled (state : State) (rest : List Handler) (turn : Turn) : State :=
  { state with
    io := turn.io
    handlers := rest ++ turn.posts
    jobs := state.jobs ++ turn.jobs }

theorem Handler.not_cleans {handler : Handler} (following : handler.isFollowing = true) :
    handler.cleans = false := by
  cases handler <;> first | rfl | cases following

theorem Job.not_cleans {job : Job} (report : job.isReport = true) : job.cleans = false := by
  cases job <;> first | rfl | cases report

/-- A cleanup that comes still comes after another handler. -/
theorem State.CleanupComing.handled (coming : state.CleanupComing)
    (queued : state.handlers = handler :: rest) (other : handler.cleans = false) :
    (state.handled rest turn).CleanupComing := by
  rcases coming with ⟨cleaner, posted, cleans⟩ | ⟨job, listed, cleans⟩
  · rw [queued] at posted
    rcases List.mem_cons.mp posted with rfl | later
    · simp [other] at cleans
    · exact .inl ⟨cleaner, List.mem_append_left _ later, cleans⟩
  · exact .inr ⟨job, List.mem_append_left _ listed, cleans⟩

/-- A handler makes no cleanup come. -/
theorem State.CleanupComing.of_handled (reports : Turn.Reports { io := state.io } turn)
    (queued : state.handlers = handler :: rest)
    (coming : (state.handled rest turn).CleanupComing) : state.CleanupComing := by
  obtain ⟨posts, posted, following⟩ := reports.posts
  obtain ⟨jobs, enqueued, report⟩ := reports.jobs
  rcases coming with ⟨cleaner, listed, cleans⟩ | ⟨job, listed, cleans⟩
  · rcases List.mem_append.mp listed with old | new
    · exact .inl ⟨cleaner, queued ▸ List.mem_cons_of_mem _ old, cleans⟩
    · rw [posted, List.nil_append] at new
      simp [Handler.not_cleans (following cleaner new)] at cleans
  · rcases List.mem_append.mp listed with old | new
    · exact .inr ⟨job, old, cleans⟩
    · rw [enqueued, List.nil_append] at new
      simp [Job.not_cleans (report job new)] at cleans

end

section

variable {options : CommonOptions} {state : State} {handler : Handler} {rest : List Handler}
  {endpoint : Endpoint}

/-- The attempt that the client ends up with is the one it had, or has just been begun. -/
theorem State.tracks_handled {turn : Turn}
    (move : Turn.ConnectionMove options state.scope handler state.io turn) {attempt : Nat}
    (tracked : turn.io.tracks attempt) :
    (state.io.tracks attempt ∧ handler.cleans = false) ∨
      (attempt = state.io.nextAttempt + 1 ∧ ∃ token, handler = .connect token ∧
        state.scope.isCurrent token = true ∧ state.io.free) := by
  cases move with
  | kept connectingSocket peer inert unfired pursued unclosed uncleaned =>
      refine .inl ⟨?_, uncleaned⟩
      rw [Io.tracks, connectingSocket, peer] at tracked
      exact tracked
  | began own current free connectingSocket peer connects =>
      refine .inr ⟨?_, _, own, current, free⟩
      rw [Io.tracks, connectingSocket, peer] at tracked
      exact (by simpa using tracked : _ = attempt).symm
  | connected own current connecting connectingSocket peer connection =>
      refine .inl ⟨.inl ?_, by rw [own]; rfl⟩
      rw [Io.tracks, connectingSocket, peer] at tracked
      rw [connecting]
      simpa using tracked
  | reported token notice warrant retries told free =>
      exact absurd tracked (not_tracks_of_free free attempt)
  | discarded own connecting stale free =>
      exact absurd tracked (not_tracks_of_free free attempt)
  | cleaned own free told => exact absurd tracked (not_tracks_of_free free attempt)

/-- The timers that wait after a handler waited before, or are of the request it sent. -/
theorem State.waits_handled {turn : Turn}
    (sent : Turn.Sent state.scope { io := state.io } turn)
    (queued : state.handlers = handler :: rest) {id : Nat} {timeoutCallback : Option Nat}
    (waits : (state.handled rest turn).Waits id timeoutCallback) :
    state.Waits id timeoutCallback ∨
      (id = state.io.requestManager.nextRequestId ∧ timeoutCallback = some state.scope.capture ∧
        id ≤ turn.io.requestManager.pendingRequests.issued) := by
  rcases waits with waiting | ⟨errorCode, listed⟩
  · rcases sent.waits _ waiting with old | ⟨new, issued⟩
    · exact .inl (.inl old)
    · obtain ⟨rfl, rfl⟩ := Prod.mk.inj new
      exact .inr ⟨rfl, rfl, issued⟩
  · rcases List.mem_append.mp listed with old | new
    · exact .inl (.inr ⟨errorCode, queued ▸ List.mem_cons_of_mem _ old⟩)
    · have waited := sent.posts.forall_mem (by simp) _ new
      exact .inl (.inl (waited _ rfl))

/-- What the client ends up with keeps a cleanup that was to come. -/
theorem State.CleanupComing.of_tracks {turn : Turn} {attempt : Nat}
    (coming : state.CleanupComing)
    (move : Turn.ConnectionMove options state.scope handler state.io turn)
    (queued : state.handlers = handler :: rest) (tracked : turn.io.tracks attempt) :
    (state.handled rest turn).CleanupComing := by
  rcases State.tracks_handled move tracked with ⟨_, other⟩ | ⟨_, token, own, _⟩
  · exact coming.handled queued other
  · exact coming.handled queued (by rw [own]; rfl)

namespace State.Tracked

theorem handled_idle {turn : Turn} (tracked : state.Tracked)
    (move : Turn.ConnectionMove options state.scope handler state.io turn)
    (free : handler.cleans = true → turn.io.free)
    (queued : state.handlers = handler :: rest) (halted : state.scope.running = false) :
    (state.handled rest turn).CleanupComing ∨ turn.io.free := by
  have stale : ∀ token, state.scope.isCurrent token ≠ true := by
    simp [NotificationScope.isCurrent, halted]
  rcases tracked.idle halted with coming | settled
  · cases cleans : handler.cleans with
    | true => exact .inr (free cleans)
    | false => exact .inl (coming.handled queued cleans)
  · refine .inr ?_
    cases move with
    | kept connectingSocket peer =>
        exact ⟨connectingSocket.trans settled.1, peer.trans settled.2⟩
    | began own current => exact absurd current (stale _)
    | connected own current => exact absurd current (stale _)
    | reported token notice warrant retries told free => exact free
    | discarded own connecting stale free => exact free
    | cleaned own free => exact free

/-- A new stamp is of the current generation. -/
theorem handled_renews {turn : Turn} (tracked : state.Tracked)
    (move : Turn.ConnectionMove options state.scope handler state.io turn)
    (attempts : state.io.nextAttempt ≤ turn.io.nextAttempt ∧
      ∀ token, handler = .connect token → state.scope.isCurrent token = true → state.io.free →
        turn.io.nextAttempt = state.io.nextAttempt + 1) :
    Turn.Renews options state.scope (state.handled rest turn).Fits state.io handler where
  connect token own current connecting peer := by
    refine ⟨Nat.le_of_eq (attempts.2 token own current ⟨connecting, peer⟩).symm, fun _ => .inr ?_⟩
    exact (NotificationScope.isCurrent_iff.mp current).2.symm
  timer timer token attempt own called enabled current := by
    refine ⟨(tracked.numbered attempt (.inr current)).trans attempts.1, fun tracks => ?_⟩
    have away : ¬ turn.io.tracks attempt := by
      cases move with
      | kept connectingSocket peer inert unfired =>
          have absent := unfired timer token own called enabled
          exact absurd (absent.symm.trans current) (by simp)
      | began own' => simp [own] at own'
      | connected own' => simp [own] at own'
      | reported token notice warrant retries told free => exact not_tracks_of_free free attempt
      | discarded own' => simp [own] at own'
      | cleaned cleans free => exact not_tracks_of_free free attempt
    exact absurd tracks away

theorem handled_stamped (tracked : state.Tracked)
    (move : Turn.ConnectionMove options state.scope handler state.io
      (Turn.run options state.scope endpoint handler { io := state.io }))
    (queued : state.handlers = handler :: rest) :
    (state.handled rest (Turn.run options state.scope endpoint handler { io := state.io })).Stamped
      (state.handled rest
        (Turn.run options state.scope endpoint handler { io := state.io })).Fits := by
  have attempts := Turn.run_attempts options state.scope endpoint handler { io := state.io }
  have stamped := tracked.stamped.mono (fun attempt token fits => ?_ :
    ∀ attempt token, state.Fits attempt token → (state.handled rest
      (Turn.run options state.scope endpoint handler { io := state.io })).Fits attempt token)
  · have start : Turn.Stamped _ { io := state.io } := ⟨stamped.io, by simp, by simp⟩
    have turn := start.run (stamped.queued.handlers handler (by simp [queued]))
      (tracked.handled_renews move attempts) endpoint
    exact ⟨turn.io, stamped.queued.handled queued turn.posts turn.jobs⟩
  · refine ⟨fits.1.trans attempts.1, fun tracks => ?_⟩
    rcases State.tracks_handled move tracks with ⟨earlier, other⟩ | ⟨new, _⟩
    · exact (fits.2 earlier).imp_left fun coming => coming.handled queued other
    · have bounded := fits.1
      omega

theorem handled_pursued {turn : Turn} (tracked : state.Tracked)
    (move : Turn.ConnectionMove options state.scope handler state.io turn)
    (queued : state.handlers = handler :: rest) {attempt : Nat}
    (connecting : turn.io.connectingSocket = some attempt) :
    (state.handled rest turn).CleanupComing ∨ (state.handled rest turn).Pursued attempt := by
  cases move with
  | kept connectingSocket peer inert unfired pursued unclosed uncleaned =>
      have connecting := connectingSocket.symm.trans connecting
      have came (coming : state.CleanupComing) : (state.handled rest turn).CleanupComing :=
        coming.handled queued uncleaned
      cases running : state.scope.running with
      | false =>
          rcases tracked.idle running with coming | free
          · exact .inl (came coming)
          · exact absurd (.inl connecting) (not_tracks_of_free free attempt)
      | true =>
          obtain ⟨connects, follows⟩ := pursued running attempt connecting
          refine (tracked.pursued attempt connecting).imp came ?_
          rintro (⟨connect, listed, own⟩ | ⟨other, posted, pursues⟩ | ⟨job, listed, pursues⟩)
          · exact .inl ⟨connect, connects connect listed own, own⟩
          · rw [queued] at posted
            rcases List.mem_cons.mp posted with rfl | later
            · obtain ⟨job, told, asks⟩ := follows pursues
              exact .inr (.inr ⟨job, List.mem_append_right _ told, asks⟩)
            · exact .inr (.inl ⟨other, List.mem_append_left _ later, pursues⟩)
          · exact .inr (.inr ⟨job, List.mem_append_left _ listed, pursues⟩)
  | began own current free connectingSocket peer connects =>
      rw [connectingSocket, Option.some.injEq] at connecting
      exact .inr (.inl ⟨_, connects, connecting⟩)
  | connected own current tracked connectingSocket =>
      rw [connectingSocket] at connecting
      cases connecting
  | reported token notice warrant retries told free =>
      exact absurd (.inl connecting) (not_tracks_of_free free attempt)
  | discarded own tracked stale free =>
      exact absurd (.inl connecting) (not_tracks_of_free free attempt)
  | cleaned own free => exact absurd (.inl connecting) (not_tracks_of_free free attempt)

theorem handled_linked (tracked : state.Tracked)
    (exclusive : state.io.connectingSocket.isSome = true → state.io.peer = none)
    (move : Turn.ConnectionMove options state.scope handler state.io
      (Turn.run options state.scope endpoint handler { io := state.io }))
    (queued : state.handlers = handler :: rest) {attempt : Nat}
    (current : (Turn.run options state.scope endpoint handler { io := state.io }).io.peer =
      some attempt) :
    (state.handled rest
      (Turn.run options state.scope endpoint handler { io := state.io })).Linked attempt := by
  cases move with
  | kept connectingSocket peer inert unfired pursued unclosed uncleaned =>
      have current := peer.symm.trans current
      obtain ⟨connection, alive, opened⟩ := tracked.linked attempt current
      have settled : state.io.connectingSocket ≠ some attempt := by
        intro connecting
        have absent := exclusive (by simp [connecting])
        exact absurd (absent.symm.trans current) (by simp)
      obtain ⟨after, alive', kept⟩ := @Turn.run_connections { io := state.io } options state.scope
        endpoint handler attempt connection alive settled
      refine ⟨after, alive', ?_⟩
      rcases opened with opened | ⟨token, listed⟩ | ⟨token, listed⟩
      · exact (kept opened).imp_right fun told =>
          .inl ⟨connection.token, List.mem_append_right _ told⟩
      · exact .inr (.inl ⟨token, List.mem_append_left _ listed⟩)
      · rw [queued] at listed
        rcases List.mem_cons.mp listed with own | later
        · exact absurd current (unclosed attempt token own.symm)
        · exact .inr (.inr ⟨token, List.mem_append_left _ later⟩)
  | began own begun free connectingSocket peer =>
      rw [peer] at current
      cases current
  | @connected new token credentials own fresh connecting connectingSocket peer connection =>
      obtain rfl : new = attempt := Option.some.inj (peer.symm.trans current)
      exact ⟨_, connection, .inl rfl⟩
  | reported token notice warrant retries told free =>
      exact absurd (.inr current) (not_tracks_of_free free attempt)
  | discarded own connecting stale free =>
      exact absurd (.inr current) (not_tracks_of_free free attempt)
  | cleaned own free => exact absurd (.inr current) (not_tracks_of_free free attempt)

theorem handled_timely {log : List Event} (tracked : state.Tracked)
    (move : Turn.ConnectionMove options state.scope handler state.io
      (Turn.run options state.scope endpoint handler { io := state.io }))
    (after : (Turn.run options state.scope endpoint handler { io := state.io }).io.Single log)
    (queued : state.handlers = handler :: rest) {id : Nat} {timeoutCallback : Option Nat}
    (waits : (state.handled rest
      (Turn.run options state.scope endpoint handler { io := state.io })).Waits id
        timeoutCallback) :
    (state.handled rest
      (Turn.run options state.scope endpoint handler { io := state.io })).Timely id
        timeoutCallback := by
  have sent := Turn.run_sent options state.scope endpoint handler { io := state.io }
  rcases State.waits_handled sent queued waits with earlier | ⟨rfl, rfl, issued⟩
  · have timely := tracked.timely id timeoutCallback earlier
    refine ⟨timely.1.trans sent.issued, fun request pending => ?_⟩
    rcases sent.pending _ pending with old | new
    · -- A pending request has a peer, so whatever was to clean up is still to come.
      obtain ⟨attempt, current, _⟩ := after.pending _ pending
      exact (timely.2 request old).imp_left
        fun coming => coming.of_tracks move queued (.inr current)
    · have bounded := timely.1
      simp only [RequestManager.nextRequestId] at new
      omega
  · exact ⟨issued, fun _ _ => .inr rfl⟩

/-- A handler keeps the invariant. -/
theorem handled {log log' : List Event} (tracked : state.Tracked) (single : state.io.Single log)
    (after : (Turn.run options state.scope endpoint handler { io := state.io }).io.Single log')
    (queued : state.handlers = handler :: rest) :
    (state.handled rest
      (Turn.run options state.scope endpoint handler { io := state.io })).Tracked := by
  have move := @Turn.run_connectionMove options state.scope state.io single.exclusive endpoint
    handler
  have free := fun cleans => @Turn.run_free options state.scope endpoint handler cleans
    { io := state.io }
  have attempts := Turn.run_attempts options state.scope endpoint handler { io := state.io }
  refine ⟨tracked.handled_idle move free queued, fun attempt tracks => ?_,
    tracked.handled_stamped move queued, fun attempt => tracked.handled_pursued move queued,
    fun attempt => tracked.handled_linked single.exclusive move queued,
    fun id timeoutCallback => tracked.handled_timely move after queued⟩
  rcases State.tracks_handled move tracks with ⟨earlier, _⟩ | ⟨rfl, token, own, current, free⟩
  · exact (tracked.numbered attempt earlier).trans attempts.1
  · exact Nat.le_of_eq (attempts.2 token own current free).symm

/-! ## Jobs and the environment -/

section

variable {state' : State}

/-- A step that leaves the connection to the I/O thread, and changes the scope only when a
cleanup comes. -/
theorem of_queued (tracked : state.Tracked)
    (connectingSocket : state'.io.connectingSocket = state.io.connectingSocket)
    (peer : state'.io.peer = state.io.peer)
    (nextAttempt : state'.io.nextAttempt = state.io.nextAttempt)
    (pending : state'.io.requestManager.pendingRequests = state.io.requestManager.pendingRequests)
    (waits : ∀ id timeoutCallback, state'.Waits id timeoutCallback →
      state.Waits id timeoutCallback)
    (coming : state.CleanupComing → state'.CleanupComing)
    (scope : ¬ state'.CleanupComing → state'.scope.generation = state.scope.generation ∧
      (state'.scope.running = false → state.scope.running = false))
    (stamped : ∀ rule, state.Stamped rule → state'.Stamped rule)
    (pursued : ∀ attempt, state.io.connectingSocket = some attempt → ¬ state'.CleanupComing →
      state.Pursued attempt → state'.Pursued attempt)
    (linked : ∀ attempt, state.io.peer = some attempt → state.Linked attempt →
      state'.Linked attempt) : state'.Tracked := by
  have tracks : ∀ attempt, state'.io.tracks attempt ↔ state.io.tracks attempt := by
    intro attempt
    rw [Io.tracks, Io.tracks, connectingSocket, peer]
  have current : ∀ token, state.CleanupComing ∨ token = state.scope.generation →
      state'.CleanupComing ∨ token = state'.scope.generation := by
    intro token fresh
    by_cases settled : state'.CleanupComing
    · exact .inl settled
    · rw [(scope settled).1]
      exact fresh.imp_left coming
  refine ⟨fun halted => ?_, fun attempt tracked' => ?_, stamped _ (tracked.stamped.mono ?_),
    fun attempt connecting => ?_, fun attempt current' => ?_, fun id timeoutCallback waiting => ?_⟩
  · by_cases settled : state'.CleanupComing
    · exact .inl settled
    · refine .inr ?_
      have free := (tracked.idle ((scope settled).2 halted)).resolve_left
        fun before => settled (coming before)
      exact ⟨connectingSocket.trans free.1, peer.trans free.2⟩
  · rw [nextAttempt]
    exact tracked.numbered attempt ((tracks attempt).mp tracked')
  · intro attempt token fits
    refine ⟨nextAttempt ▸ fits.1, fun tracked' => current token (fits.2 ?_)⟩
    exact (tracks attempt).mp tracked'
  · by_cases settled : state'.CleanupComing
    · exact .inl settled
    · have connecting := connectingSocket.symm.trans connecting
      have follows := (tracked.pursued attempt connecting).resolve_left
        fun before => settled (coming before)
      exact .inr (pursued attempt connecting settled follows)
  · have current' := peer.symm.trans current'
    exact linked attempt current' (tracked.linked attempt current')
  · have timely := tracked.timely id timeoutCallback (waits id timeoutCallback waiting)
    refine ⟨?_, fun request listed => ?_⟩
    · rw [pending]
      exact timely.1
    · rw [pending] at listed
      by_cases settled : state'.CleanupComing
      · exact .inl settled
      · rw [(scope settled).1]
        exact (timely.2 request listed).imp_left coming

end

end State.Tracked

end

section

variable {options : CommonOptions} {state state' : State} {job : Job} {rest : List Job}

/-- The state after a job. -/
def State.performed (state : State) (rest : List Job) (job : Job) (verdict : Bool) : State :=
  { state with
    dispatcher := (perform state.dispatcher job verdict).1
    handlers := state.handlers ++ (perform state.dispatcher job verdict).2.posts
    jobs := (perform state.dispatcher job verdict).2.next ++ rest ++
      (perform state.dispatcher job verdict).2.jobs
    delayed := state.delayed ++ (perform state.dispatcher job verdict).2.delayed }

/-- The last effect of a call posts the handler that cleans up. -/
theorem perform_cleans {job : Job} (cleans : job.cleans = true) (dispatcher : Dispatcher)
    (verdict : Bool) :
    ∃ handler ∈ (perform dispatcher job verdict).2.posts, handler.cleans = true := by
  cases job with
  | postStop => exact ⟨.stop, List.mem_singleton.mpr rfl, rfl⟩
  | postInvalidateConnection =>
      exact ⟨.invalidateConnection _, List.mem_singleton.mpr rfl, rfl⟩
  | _ => cases cleans

/-- The timers of requests are no business of the dispatcher. -/
theorem perform_untimed (dispatcher : Dispatcher) (job : Job) (verdict : Bool) :
    ∀ timer, .requestTimer timer ∉ (perform dispatcher job verdict).2.posts := by
  cases job with
  | signal attempt token sent => cases sent <;> simp [perform, slot]
  | notify token notice =>
      simp only [perform]
      split
      · cases notice <;> simp [notify]
      · simp
  | _ => simp [perform]

theorem State.waits_performed {verdict : Bool} {id : Nat} {timeoutCallback : Option Nat}
    (waits : (state.performed rest job verdict).Waits id timeoutCallback) :
    state.Waits id timeoutCallback := by
  rcases waits with waiting | ⟨errorCode, listed⟩
  · exact .inl waiting
  · rcases List.mem_append.mp listed with old | new
    · exact .inr ⟨errorCode, old⟩
    · exact absurd new (perform_untimed _ job verdict _)

theorem State.CleanupComing.performed (coming : state.CleanupComing)
    (queued : state.jobs = job :: rest) (verdict : Bool) :
    (state.performed rest job verdict).CleanupComing := by
  rcases coming with ⟨cleaner, posted, cleans⟩ | ⟨other, listed, cleans⟩
  · exact .inl ⟨cleaner, List.mem_append_left _ posted, cleans⟩
  · rw [queued] at listed
    rcases List.mem_cons.mp listed with rfl | later
    · obtain ⟨cleaner, posted, cleans'⟩ := perform_cleans cleans state.dispatcher verdict
      exact .inl ⟨cleaner, List.mem_append_right _ posted, cleans'⟩
    · exact .inr ⟨other, List.mem_append_left _ (List.mem_append_right _ later), cleans⟩

/-- Where the generation has been advanced, a cleanup comes. -/
theorem State.performed_scope {todo others : List Job} (cleaning : Cleaning state todo others)
    (queued : state.jobs = job :: rest) (verdict : Bool)
    (settled : ¬ (state.performed rest job verdict).CleanupComing) :
    (state.performed rest job verdict).scope.generation = state.scope.generation ∧
      ((state.performed rest job verdict).scope.running = false →
        state.scope.running = false) := by
  have comes : ∀ {later : Job}, later.cleans = true →
      later ∈ (perform state.dispatcher job verdict).2.next ++ rest →
      (state.performed rest job verdict).CleanupComing :=
    fun cleans listed => .inr ⟨_, List.mem_append_left _ listed, cleans⟩
  show (perform state.dispatcher job verdict).1.notificationScope.generation = _ ∧
    ((perform state.dispatcher job verdict).1.notificationScope.running = false → _)
  rw [perform_scope]
  split
  · exact ⟨rfl, by simp [NotificationScope.start]⟩
  · exact absurd (@comes .postStop rfl (by simp [perform])) settled
  · exact absurd (@comes .postInvalidateConnection rfl (by simp [perform])) settled
  · obtain ⟨later, rfl, rfl⟩ := cleaning.of_part queued rfl
    have stopping : .postStop ∈ later := by
      rcases cleaning.tails with same | same | same | same | same | same <;>
        simp_all [stopTail, invalidateTail]
    refine absurd (@comes .postStop rfl ?_) settled
    exact List.mem_append_right _ (List.mem_append_left _ stopping)
  · exact ⟨rfl, id⟩

theorem State.Stamped.performed {rule : Nat → Nat → Prop} (stamped : state.Stamped rule)
    (queued : state.jobs = job :: rest) (verdict : Bool) :
    (state.performed rest job verdict).Stamped rule := by
  have effect := perform_stamped (stamped.queued.jobs job (by simp [queued])) state.dispatcher
    verdict
  exact ⟨stamped.io, stamped.queued.performed queued effect.posts effect.next effect.jobs
    effect.delayed⟩

theorem State.Tracked.performed (tracked : state.Tracked)
    (cleaning : ∃ todo others, Cleaning state todo others) (queued : state.jobs = job :: rest)
    (verdict : Bool) : (state.performed rest job verdict).Tracked := by
  obtain ⟨todo, others, cleaning⟩ := cleaning
  have coming := fun before : state.CleanupComing => before.performed queued verdict
  have later : ∀ {other : Job}, other ∈ rest →
      other ∈ (state.performed rest job verdict).jobs :=
    fun listed => List.mem_append_left _ (List.mem_append_right _ listed)
  have posted : ∀ {handler : Handler}, handler ∈ state.handlers →
      handler ∈ (state.performed rest job verdict).handlers := List.mem_append_left _
  refine tracked.of_queued rfl rfl rfl rfl (fun _ _ => State.waits_performed) coming
    (State.performed_scope cleaning queued verdict)
    (fun rule stamped => stamped.performed queued verdict)
    (fun attempt connecting settled pursued => ?_) fun attempt current linked => ?_
  · rcases pursued with outstanding | ⟨handler, listed, pursues⟩ | ⟨other, listed, pursues⟩
    · exact .inl outstanding
    · exact .inr (.inl ⟨handler, posted listed, pursues⟩)
    · rw [queued] at listed
      rcases List.mem_cons.mp listed with rfl | listed
      · -- The verdict is asked for while the token is current.
        cases other with
        | notify token notice =>
            cases notice with
            | verifyPeer other credentials captured =>
                obtain rfl : other = attempt := by simpa [Job.pursues] using pursues
                have before : ¬ state.CleanupComing := fun before => settled (coming before)
                have stamped := tracked.stamped.queued.jobs _ (queued ▸ List.mem_cons_self)
                have fresh := (stamped.1.2 (.inl connecting)).resolve_left before
                have running : state.scope.running = true := by
                  by_contra halted
                  have free := (tracked.idle (by simpa using halted)).resolve_left before
                  exact not_tracks_of_free free other (.inl connecting)
                have current : state.scope.isCurrent token = true :=
                  NotificationScope.isCurrent_iff.mpr ⟨running, fresh.symm⟩
                refine .inr (.inl ⟨.handleConnectedSocket other credentials verdict captured,
                  List.mem_append_right _ ?_, pursues⟩)
                simp [perform, current, notify]
            | _ => cases pursues
        | _ => cases pursues
      · exact .inr (.inr ⟨other, later listed, pursues⟩)
  · obtain ⟨connection, alive, opened⟩ := linked
    refine ⟨connection, alive, opened.imp_right ?_⟩
    rintro (⟨token, listed⟩ | ⟨token, listed⟩)
    · rw [queued] at listed
      rcases List.mem_cons.mp listed with rfl | listed
      · exact .inr ⟨token, List.mem_append_right _ (List.mem_singleton.mpr rfl)⟩
      · exact .inl ⟨token, later listed⟩
    · exact .inr ⟨token, posted listed⟩

theorem State.Tracked.due {index : Nat} (tracked : state.Tracked) (idle : state.jobs = [])
    (due : state.delayed[index]? = some job) :
    State.Tracked { state with jobs := [job], delayed := state.delayed.eraseIdx index } := by
  refine tracked.of_queued rfl rfl rfl rfl (fun _ _ => id) (fun coming => ?_)
    (fun _ => ⟨rfl, id⟩) (fun rule stamped => ⟨stamped.io, stamped.queued.due due⟩)
    (fun attempt connecting settled pursued => ?_) fun attempt current linked => ?_
  · exact coming.imp_right fun ⟨other, listed, _⟩ => by simp [idle] at listed
  · exact pursued.imp_right (Or.imp_right fun ⟨other, listed, _⟩ => by simp [idle] at listed)
  · obtain ⟨connection, alive, opened⟩ := linked
    refine ⟨connection, alive, opened.imp_right ?_⟩
    exact Or.imp_left fun ⟨token, listed⟩ => by simp [idle] at listed

/-- Another handler is queued from outside. -/
theorem State.Tracked.posted {io : Io} (tracked : state.Tracked) (handler : Handler)
    (connectingSocket : io.connectingSocket = state.io.connectingSocket)
    (peer : io.peer = state.io.peer) (nextAttempt : io.nextAttempt = state.io.nextAttempt)
    (pending : io.requestManager.pendingRequests = state.io.requestManager.pendingRequests)
    (waits : ∀ id timeoutCallback, State.Waits (post handler { state with io }) id
      timeoutCallback → state.Waits id timeoutCallback)
    (stamped : ∀ rule, state.Stamped rule → State.Stamped rule (post handler { state with io }))
    (connects : ∀ connect ∈ state.io.connects, connect ∈ io.connects ∨
      handler.pursues connect.attempt = true)
    (connections : ∀ attempt connection, state.io.peer = some attempt →
      state.io.connections attempt = some connection → ∃ after,
        io.connections attempt = some after ∧ after.peer.isOpen = connection.peer.isOpen) :
    State.Tracked (post handler { state with io }) := by
  have queued : ∀ {other : Handler}, other ∈ state.handlers →
      other ∈ (post handler { state with io }).handlers := List.mem_append_left _
  have own : handler ∈ (post handler { state with io }).handlers :=
    List.mem_append_right _ (List.mem_singleton.mpr rfl)
  refine tracked.of_queued connectingSocket peer nextAttempt pending waits
    (Or.imp_left fun ⟨cleaner, listed, cleans⟩ => ⟨cleaner, queued listed, cleans⟩)
    (fun _ => ⟨rfl, id⟩) stamped (fun attempt connecting settled pursued => ?_)
    fun attempt current linked => ?_
  · rcases pursued with ⟨connect, outstanding, same⟩ | ⟨other, listed, pursues⟩ | asked
    · rcases connects connect outstanding with kept | completed
      · exact .inl ⟨connect, kept, same⟩
      · exact .inr (.inl ⟨handler, own, same ▸ completed⟩)
    · exact .inr (.inl ⟨other, queued listed, pursues⟩)
    · exact .inr (.inr asked)
  · obtain ⟨connection, alive, opened⟩ := linked
    obtain ⟨after, alive', same⟩ := connections attempt connection current alive
    refine ⟨after, alive', ?_⟩
    rw [same]
    exact opened.imp_right (Or.imp_right fun ⟨token, listed⟩ => ⟨token, queued listed⟩)

/-- A job queued from outside. -/
theorem State.Tracked.enqueued {job : Job} (tracked : state.Tracked)
    (stamped : ∀ rule, job.Stamped rule) : State.Tracked (enqueue job state) := by
  have queued : ∀ {other : Job}, other ∈ state.jobs → other ∈ (enqueue job state).jobs :=
    List.mem_append_left _
  refine tracked.of_queued rfl rfl rfl rfl (fun _ _ => id)
    (Or.imp_right fun ⟨other, listed, cleans⟩ => ⟨other, queued listed, cleans⟩)
    (fun _ => ⟨rfl, id⟩) (fun rule held => ⟨held.io, held.queued.enqueued (stamped rule)⟩)
    (fun attempt connecting settled => Or.imp_right (Or.imp_right
      fun ⟨other, listed, pursues⟩ => ⟨other, queued listed, pursues⟩))
    fun attempt current linked => ?_
  obtain ⟨connection, alive, opened⟩ := linked
  exact ⟨connection, alive, opened.imp_right
    (Or.imp_left fun ⟨token, listed⟩ => ⟨token, queued listed⟩)⟩

/-- A timer that expires has its handler queued. -/
theorem State.waits_accepts {input : Input} {events : List Event}
    (accepts : Accepts state input events state') {id : Nat} {timeoutCallback : Option Nat}
    (waits : state'.Waits id timeoutCallback) : state.Waits id timeoutCallback := by
  have posted : ∀ {handler : Handler} {io : Io},
      (∀ wait ∈ io.requestManager.waits, wait ∈ state.io.requestManager.waits) →
      Turn.WaitedIn state.io.requestManager handler →
      State.Waits (post handler { state with io }) id timeoutCallback →
      state.Waits id timeoutCallback := by
    rintro handler io fewer waited (waiting | ⟨errorCode, listed⟩)
    · exact .inl (fewer _ waiting)
    · rcases List.mem_append.mp listed with old | new
      · exact .inr ⟨errorCode, old⟩
      · exact .inl (waited _ (List.mem_singleton.mp new).symm)
  cases accepts with
  | asyncStart => exact waits
  | asyncStop => exact waits
  | asyncInvalidateConnection => exact waits
  | destroy alive released => exact waits
  | requestExpires expires =>
      obtain ⟨_, fewer, waited⟩ := RequestManager.expire?_eq_some expires
      refine posted fewer (fun other own => ?_) waits
      cases own
      exact waited
  | _ =>
      refine posted (fun _ listed => listed) (fun other own => ?_) waits
      cases own

theorem State.Tracked.accepts {input : Input} {events : List Event} (tracked : state.Tracked)
    (accepts : Accepts state input events state') : state'.Tracked := by
  have kept : ∀ rule, state.Stamped rule → state'.Stamped rule :=
    fun rule stamped => stamped.accepts accepts
  have waits : ∀ id timeoutCallback, state'.Waits id timeoutCallback →
      state.Waits id timeoutCallback := fun _ _ => State.waits_accepts accepts
  have outstanding : ∀ (handler : Handler) (connect : Connect), connect ∈ state.io.connects →
      connect ∈ state.io.connects ∨ handler.pursues connect.attempt = true :=
    fun _ _ listed => .inl listed
  have alive : ∀ attempt connection, state.io.peer = some attempt →
      state.io.connections attempt = some connection → ∃ after,
        state.io.connections attempt = some after ∧
          after.peer.isOpen = connection.peer.isOpen :=
    fun attempt connection _ alive => ⟨connection, alive, rfl⟩
  cases accepts with
  | asyncStart => exact tracked.enqueued fun _ => trivial
  | asyncStop => exact tracked.enqueued fun _ => trivial
  | asyncInvalidateConnection => exact tracked.enqueued fun _ => trivial
  | asyncSend data =>
      exact tracked.posted _ rfl rfl rfl rfl waits kept (outstanding _) alive
  | asyncRespond requestId data =>
      exact tracked.posted _ rfl rfl rfl rfl waits kept (outstanding _) alive
  | asyncRequest call data =>
      exact tracked.posted _ rfl rfl rfl rfl waits kept (outstanding _) alive
  | @connectCompletes connect result listed genuine =>
      refine tracked.posted _ rfl rfl rfl rfl waits kept
        (fun other waiting => ?_) alive
      by_cases same : other.attempt = connect.attempt
      · exact .inr (by simpa [Handler.pursues] using same.symm)
      · exact .inl (List.mem_filter.mpr ⟨waiting, by simpa using same⟩)
  | @peerCompletes own connection completion peer handler held completes =>
      refine tracked.posted _ rfl rfl rfl rfl waits kept (outstanding _)
        fun attempt connection' _ held' => ?_
      by_cases same : attempt = own
      · subst same
        obtain rfl : connection = connection' := Option.some.inj (held.symm.trans held')
        exact ⟨_, Function.update_self .., (Peer.complete?_keeps completes).1⟩
      · exact ⟨connection', (Function.update_of_ne same ..).trans held', rfl⟩
  | @requestExpires requestId requestManager timer expires =>
      have pending := (RequestManager.expire?_eq_some expires).1
      exact tracked.posted _ rfl rfl rfl pending waits kept (outstanding _) alive
  | @destroy own connection held unheld =>
      have listed : ∀ {job : Job}, job.isOf own = false → job ∈ state.jobs →
          job ∈ state.jobs.filter fun job => !job.isOf own :=
        fun other listed => List.mem_filter.mpr ⟨listed, by simp [other]⟩
      refine tracked.of_queued rfl rfl rfl rfl (fun _ _ => id) (Or.imp_right ?_)
        (fun _ => ⟨rfl, id⟩) kept (fun attempt connecting settled => Or.imp_right (Or.imp_right ?_))
        fun attempt current linked => ?_
      · rintro ⟨job, queued, cleans⟩
        refine ⟨job, listed ?_ queued, cleans⟩
        cases job <;> first | rfl | cases cleans
      · rintro ⟨job, queued, pursues⟩
        refine ⟨job, listed ?_ queued, pursues⟩
        cases job <;> first | rfl | cases pursues
      · have different : attempt ≠ own := by
          rintro rfl
          simp [released, current] at unheld
        obtain ⟨connection', held', opened⟩ := linked
        refine ⟨connection', (Function.update_of_ne different ..).trans held', ?_⟩
        rcases opened with opened | ⟨token, queued⟩ | posted
        · exact .inl opened
        · refine .inr (.inl ⟨token, listed ?_ queued⟩)
          simpa [Job.isOf] using different
        · exact .inr (.inr posted)

theorem step_tracked {log : List Event} {label : Label} {events : List Event}
    (tracked : state.Tracked) (backed : state.Backed log)
    (cleaning : ∃ todo others, Cleaning state todo others)
    (step : (system options).step? state label = some (state', events)) : state'.Tracked := by
  have after := step_backed backed step
  cases Program.step_of_eq_some step with
  | handler queued endpoint => exact tracked.handled backed.io after.io queued
  | job queued verdict => exact tracked.performed cleaning queued verdict
  | delayed idle due => exact tracked.due idle due
  | input accepted => exact tracked.accepts (accepts_of_eq_some accepted)

theorem run_tracked {permitted : State → Label → Prop} {log : List Event}
    (run : Run (system options) permitted initial log state) : state.Tracked := by
  induction run with
  | refl => exact initial_tracked
  | next run _ step ih => exact step_tracked ih (run_backed run) (run_cleaning run) step

end

end UnixDomainStream.Client
