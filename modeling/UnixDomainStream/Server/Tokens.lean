import UnixDomainStream.Server.Stopping

/-!
# Captured tokens

A token goes from the job that captured it to the notification that is compared with it,
along with the acceptor or the peer that the notification is about.  A rule for such stamps
that holds of those made anew holds of all of them.
-/

namespace UnixDomainStream.Server

open Library
open Protocol (Bytes)

/-- What a token was captured for: a bind or a health check that is to begin, the acceptor of
an attempt, or a peer. -/
inductive Origin where
  | session
  | acceptor (attempt : Nat)
  | peer (id : Nat)
  deriving DecidableEq, Repr

section

variable (rule : Origin → Nat → Prop)

def Probe.Stamped (probe : Probe) : Prop := rule (.acceptor probe.attempt) probe.token

def Slots.Stamped : Slots → Prop
  | .accepted id _ token => rule (.peer id) token
  | .healthCheck probe => probe.Stamped rule

def Handler.Stamped : Handler → Prop
  | .bind token => rule .session token
  | .socketPathHealthCheck token => rule .session token
  | .accept operation _ => rule (.acceptor operation.attempt) operation.token
  | .healthCheckTimeout probe _ => probe.Stamped rule
  | .healthCheckConnect probe _ => probe.Stamped rule
  | .healthCheckResponse probe => probe.Stamped rule
  | .healthCheckFailed probe _ => probe.Stamped rule
  | _ => True

/-- A notification that was enqueued with the given token. -/
def Notice.Stamped (token : Nat) : Notice → Prop
  | .bound attempt => rule (.acceptor attempt) token
  | .bindFailed attempt _ => rule (.acceptor attempt) token
  | .closed attempt => rule (.acceptor attempt) token
  | .ready id _ => rule (.peer id) token

def Job.Stamped : Job → Prop
  | .notify token notice => notice.Stamped rule token
  | .signal slots _ => slots.Stamped rule
  | _ => True

/-- The operations outstanding and the peer objects carry stamps as well. -/
structure Io.Stamped (io : Io) : Prop where
  accepts : ∀ accept ∈ io.accepts, rule (.acceptor accept.attempt) accept.token
  timeoutWaits : ∀ probe ∈ io.timeoutWaits, probe.Stamped rule
  connects : ∀ probe ∈ io.connects, probe.Stamped rule
  connections : ∀ ref connection, io.connections ref = some connection →
    connection.slots.Stamped rule

structure State.Stamped (state : State) : Prop where
  io : state.io.Stamped rule
  queued : state.All (Handler.Stamped rule) (Job.Stamped rule)

end

section

variable {rule other : Origin → Nat → Prop}
  (weaker : ∀ origin token, rule origin token → other origin token)

include weaker

theorem Slots.Stamped.mono {slots : Slots} (stamped : slots.Stamped rule) :
    slots.Stamped other := by
  cases slots <;> exact weaker _ _ stamped

theorem Handler.Stamped.mono {handler : Handler} (stamped : handler.Stamped rule) :
    handler.Stamped other := by
  cases handler <;> first | exact weaker _ _ stamped | trivial

theorem Job.Stamped.mono {job : Job} (stamped : job.Stamped rule) : job.Stamped other := by
  cases job with
  | notify token notice => cases notice <;> exact weaker _ _ stamped
  | signal slots sent => exact Slots.Stamped.mono weaker stamped
  | _ => trivial

theorem Io.Stamped.mono {io : Io} (stamped : io.Stamped rule) : io.Stamped other where
  accepts accept listed := weaker _ _ (stamped.accepts accept listed)
  timeoutWaits probe listed := weaker _ _ (stamped.timeoutWaits probe listed)
  connects probe listed := weaker _ _ (stamped.connects probe listed)
  connections ref connection alive :=
    Slots.Stamped.mono weaker (stamped.connections ref connection alive)

theorem State.Stamped.mono {state : State} (stamped : state.Stamped rule) :
    state.Stamped other :=
  ⟨stamped.io.mono weaker, stamped.queued.mono (fun _ => Handler.Stamped.mono weaker)
    fun _ => Job.Stamped.mono weaker⟩

end

section

variable {rule : Origin → Nat → Prop} {io : Io}

/-- Members without stamps do not matter. -/
theorem Io.Stamped.of_same {io' : Io} (stamped : io.Stamped rule)
    (accepts : io'.accepts = io.accepts) (timeoutWaits : io'.timeoutWaits = io.timeoutWaits)
    (connects : io'.connects = io.connects) (connections : io'.connections = io.connections) :
    io'.Stamped rule := by
  constructor
  · rw [accepts]
    exact stamped.accepts
  · rw [timeoutWaits]
    exact stamped.timeoutWaits
  · rw [connects]
    exact stamped.connects
  · rw [connections]
    exact stamped.connections

/-- A peer object is replaced by one whose slots are stamped. -/
theorem Io.Stamped.connected (stamped : io.Stamped rule) {ref : PeerRef}
    {connection : Connection ref} (own : connection.slots.Stamped rule) :
    Io.Stamped rule
      { io with connections := Function.update io.connections ref (some connection) } := by
  refine ⟨stamped.accepts, stamped.timeoutWaits, stamped.connects, fun other found alive => ?_⟩
  by_cases same : other = ref
  · subst same
    simp only [Function.update_self, Option.some.injEq] at alive
    rw [← alive]
    exact own
  · simp only [Function.update_of_ne same] at alive
    exact stamped.connections other found alive

end

/-! ## Handlers -/

namespace Turn

structure Stamped (rule : Origin → Nat → Prop) (turn : Turn) : Prop where
  io : turn.io.Stamped rule
  posts : ∀ handler ∈ turn.posts, handler.Stamped rule
  jobs : ∀ job ∈ turn.jobs, job.Stamped rule

variable {rule : Origin → Nat → Prop} {turn : Turn}

namespace Stamped

theorem post (stamped : turn.Stamped rule) {handler : Handler} (own : handler.Stamped rule) :
    (turn.post handler).Stamped rule := by
  refine ⟨stamped.io, ?_, stamped.jobs⟩
  refine (Appends.single ?_ _).forall_mem stamped.posts
  exact own

theorem enqueue (stamped : turn.Stamped rule) {job : Job} (own : job.Stamped rule) :
    (turn.enqueue job).Stamped rule := by
  refine ⟨stamped.io, stamped.posts, ?_⟩
  refine (Appends.single ?_ _).forall_mem stamped.jobs
  exact own

/-- Handlers without stamps are posted, and the members that carry stamps stay. -/
theorem posted (stamped : turn.Stamped rule) {io : Io} {more : List Handler}
    (same : io.Stamped rule) (plain : ∀ handler ∈ more, handler.Stamped rule) :
    Stamped rule { turn with io, posts := turn.posts ++ more } :=
  ⟨same, (Appends.append plain _).forall_mem stamped.posts, stamped.jobs⟩

/-- The timers and the callbacks of requests carry no stamps. -/
theorem request (stamped : turn.Stamped rule)
    (call : RequestManager Nat Nat → RequestTurn Nat Nat) : (turn.request call).Stamped rule := by
  refine ⟨stamped.io.of_same rfl rfl rfl rfl, ?_, ?_⟩
  · refine (Appends.map ?_ _).forall_mem stamped.posts
    intro timer _
    trivial
  · refine (Appends.map ?_ _).forall_mem stamped.jobs
    intro completion _
    trivial

/-- The signals of a peer carry the token that its slots captured. -/
theorem runPeer (stamped : turn.Stamped rule) (options : CommonOptions) (ref : PeerRef)
    (handler : PeerHandler) : (turn.runPeer options ref handler).Stamped rule := by
  unfold Turn.runPeer
  split
  · exact stamped
  case h_2 connection alive =>
    have own := stamped.io.connections ref connection alive
    constructor
    · exact stamped.io.connected own
    · refine (Appends.map ?_ _).forall_mem stamped.posts
      intro posted _
      trivial
    · refine ((Appends.map ?_ _).trans (.append ?_ _)).forall_mem stamped.jobs
      · intro sent _
        exact own
      · intro job listed
        split at listed
        · cases ref with
          | accepted id =>
              rw [List.mem_singleton.mp listed]
              trivial
          | probe timeout => cases listed
        · cases listed

theorem closeAcceptor (stamped : turn.Stamped rule) : turn.closeAcceptor.Stamped rule := by
  refine stamped.posted ?_ ?_
  · exact ⟨by simp, stamped.io.timeoutWaits, stamped.io.connects, stamped.io.connections⟩
  · intro handler listed
    obtain ⟨accept, outstanding, rfl⟩ := List.mem_map.mp listed
    exact stamped.io.accepts accept outstanding

theorem cancelTimeout (stamped : turn.Stamped rule) (timeout : Nat) :
    (turn.cancelTimeout timeout).Stamped rule := by
  have waits : ∀ {test : Probe → Bool}, ∀ probe ∈ turn.io.timeoutWaits.filter test,
      probe.Stamped rule :=
    fun probe listed => stamped.io.timeoutWaits probe (List.mem_of_mem_filter listed)
  refine stamped.posted ?_ ?_
  · exact ⟨stamped.io.accepts, waits, stamped.io.connects, stamped.io.connections⟩
  · intro handler listed
    obtain ⟨probe, waiting, rfl⟩ := List.mem_map.mp listed
    exact waits probe waiting

theorem closeProbeSocket (stamped : turn.Stamped rule) (timeout : Nat) :
    (turn.closeProbeSocket timeout).Stamped rule := by
  have connects : ∀ {test : Probe → Bool}, ∀ probe ∈ turn.io.connects.filter test,
      probe.Stamped rule :=
    fun probe listed => stamped.io.connects probe (List.mem_of_mem_filter listed)
  refine stamped.posted ?_ ?_
  · exact ⟨stamped.io.accepts, stamped.io.timeoutWaits, connects, stamped.io.connections⟩
  · intro handler listed
    obtain ⟨probe, connecting, rfl⟩ := List.mem_map.mp listed
    exact connects probe connecting

theorem resetTimeout (stamped : turn.Stamped rule) : turn.resetTimeout.Stamped rule := by
  unfold Turn.resetTimeout
  split
  · exact stamped
  case h_2 timeout _ =>
    have cancelled := stamped.cancelTimeout timeout
    exact ⟨cancelled.io.of_same rfl rfl rfl rfl, cancelled.posts, cancelled.jobs⟩

theorem resetProbePeer (stamped : turn.Stamped rule) : turn.resetProbePeer.Stamped rule := by
  unfold Turn.resetProbePeer
  split
  · exact stamped
  case h_2 timeout _ =>
    have handler : Handler.Stamped rule (.peer (.probe timeout) (.close false)) := trivial
    have closed := stamped.post handler
    exact ⟨closed.io.of_same rfl rfl rfl rfl, closed.posts, closed.jobs⟩

theorem closeSocketPathHealthCheckPeer (stamped : turn.Stamped rule) :
    turn.closeSocketPathHealthCheckPeer.Stamped rule :=
  stamped.resetTimeout.resetProbePeer

theorem handleSocketPathHealthCheckFailed (stamped : turn.Stamped rule)
    (scope : NotificationScope) {probe : Probe} (own : probe.Stamped rule) :
    (turn.handleSocketPathHealthCheckFailed scope probe).Stamped rule := by
  unfold Turn.handleSocketPathHealthCheckFailed
  split
  · exact stamped
  · refine Stamped.enqueue ?_ own
    exact stamped.closeSocketPathHealthCheckPeer.closeAcceptor

/-- An accept is begun on the acceptor that is open. -/
theorem accept (stamped : turn.Stamped rule) (scope : NotificationScope) {token : Nat}
    (fresh : scope.isCurrent token = true → ∀ attempt, turn.io.acceptor = some attempt →
      rule (.acceptor attempt) token) : (turn.accept scope token).Stamped rule := by
  unfold Turn.accept
  split
  · exact stamped
  case h_2 attempt bound =>
    split
    case isTrue current =>
      refine ⟨⟨?_, stamped.io.timeoutWaits, stamped.io.connects, stamped.io.connections⟩,
        stamped.posts, stamped.jobs⟩
      refine (Appends.single ?_ _).forall_mem stamped.io.accepts
      exact fresh current attempt bound
    case isFalse => exact stamped

theorem onBind (stamped : turn.Stamped rule) (scope : NotificationScope) {token : Nat}
    (fresh : scope.isCurrent token = true → turn.io.acceptor = none →
      rule (.acceptor (turn.io.nextAttempt + 1)) token) (outcome : BindOutcome) :
    (turn.onBind scope token outcome).Stamped rule := by
  have counted : ∀ acceptor : Option Nat, Stamped rule { turn with
      io := { turn.io with nextAttempt := turn.io.nextAttempt + 1, acceptor } } :=
    fun acceptor => ⟨stamped.io.of_same rfl rfl rfl rfl, stamped.posts, stamped.jobs⟩
  unfold Turn.onBind
  split
  · exact stamped
  case isFalse free =>
    simp only [Bool.or_eq_true, not_or, Bool.not_eq_true', Bool.not_eq_false, Bool.not_eq_true,
      Option.isSome_eq_false_iff, Option.isNone_iff_eq_none] at free
    have new := fresh free.1 free.2
    dsimp only
    split
    · refine Stamped.enqueue ?_ new
      exact (counted turn.io.acceptor).closeAcceptor
    · refine Stamped.enqueue ?_ new
      exact (counted _).closeAcceptor
    · refine Stamped.accept ?_ scope ?_
      · refine Stamped.enqueue ?_ new
        exact counted _
      · intro _ attempt bound
        cases bound
        exact new

/-- A peer is accepted with the token of the accept, and the next accept has the same. -/
theorem onAccept (stamped : turn.Stamped rule) (scope : NotificationScope) {accept : Accept}
    (own : rule (.acceptor accept.attempt) accept.token) (result : AcceptResult)
    (fresh : ∀ credentials, result = .socket credentials → scope.isCurrent accept.token = true →
      rule (.peer (turn.io.nextPeerId + 1)) accept.token ∧
        ∀ attempt, turn.io.acceptor = some attempt → rule (.acceptor attempt) accept.token) :
    (turn.onAccept scope accept result).Stamped rule := by
  unfold Turn.onAccept
  split
  · exact stamped
  case isFalse current =>
    replace current : scope.isCurrent accept.token = true := by simpa using current
    cases result with
    | error errorCode =>
        dsimp only
        split
        · exact stamped
        · exact stamped.closeAcceptor.enqueue own
    | socket credentials =>
        obtain ⟨peer, next⟩ := fresh credentials rfl current
        dsimp only [Turn.handleAcceptedSocket]
        split
        · exact stamped
        · refine Stamped.accept ?_ scope fun _ => next
          refine Stamped.post ?_ trivial
          let connection : Connection (.accepted (turn.io.nextPeerId + 1)) :=
            ⟨{}, .accepted (turn.io.nextPeerId + 1) credentials accept.token, rfl⟩
          have own : connection.slots.Stamped rule := peer
          have connected := stamped.io.connected own
          exact ⟨connected.of_same rfl rfl rfl rfl, stamped.posts, stamped.jobs⟩

/-- A probe is started on the acceptor that is open. -/
theorem onSocketPathHealthCheck (stamped : turn.Stamped rule) (scope : NotificationScope)
    {token : Nat} (fresh : scope.isCurrent token = true → ∀ attempt,
      turn.io.acceptor = some attempt → rule (.acceptor attempt) token) (outcome : BindOutcome) :
    (turn.onSocketPathHealthCheck scope token outcome).Stamped rule := by
  unfold Turn.onSocketPathHealthCheck
  split
  · exact stamped
  case h_2 attempt bound =>
    split
    · exact stamped
    case isFalse free =>
      simp only [Bool.or_eq_true, not_or, Bool.not_eq_true', Bool.not_eq_false] at free
      have new := fresh free.1 attempt bound
      dsimp only
      split
      · refine Stamped.handleSocketPathHealthCheckFailed ?_ scope new
        exact ⟨stamped.io.of_same rfl rfl rfl rfl, stamped.posts, stamped.jobs⟩
      · refine ⟨⟨stamped.io.accepts, ?_, ?_, stamped.io.connections⟩, stamped.posts, stamped.jobs⟩
        · refine (Appends.single ?_ _).forall_mem stamped.io.timeoutWaits
          exact new
        · refine (Appends.single ?_ _).forall_mem stamped.io.connects
          exact new

theorem onHealthCheckTimeout (stamped : turn.Stamped rule) (scope : NotificationScope)
    {probe : Probe} (own : probe.Stamped rule) (errorCode : ErrorCode) :
    (turn.onHealthCheckTimeout scope probe errorCode).Stamped rule := by
  have closed := stamped.closeProbeSocket probe.timeout
  unfold Turn.onHealthCheckTimeout
  dsimp only
  split
  · exact closed.handleSocketPathHealthCheckFailed scope own
  · exact closed

theorem onHealthCheckConnect (stamped : turn.Stamped rule) (scope : NotificationScope)
    {probe : Probe} (own : probe.Stamped rule) (errorCode : ErrorCode) :
    (turn.onHealthCheckConnect scope probe errorCode).Stamped rule := by
  have cancelled := stamped.cancelTimeout probe.timeout
  unfold Turn.onHealthCheckConnect
  split
  · exact cancelled
  · split
    · exact cancelled.handleSocketPathHealthCheckFailed scope own
    · refine Stamped.post ?_ trivial
      refine Stamped.post ?_ trivial
      let connection : Connection (.probe probe.timeout) :=
        ⟨{ isOpen := decide (probe.timeout ∉ turn.io.closedSockets) }, .healthCheck probe, rfl⟩
      have slots : connection.slots.Stamped rule := own
      have connected := stamped.io.connected slots
      exact ⟨connected.of_same rfl rfl rfl rfl, stamped.posts, stamped.jobs⟩

theorem onHealthCheckResponse (stamped : turn.Stamped rule) (scope : NotificationScope)
    (probe : Probe) : (turn.onHealthCheckResponse scope probe).Stamped rule := by
  unfold Turn.onHealthCheckResponse
  split
  · exact stamped.closeSocketPathHealthCheckPeer
  · exact stamped

end Stamped

/-- Accepted peers and requests are given no stamps but when a peer is accepted. -/
theorem PeerPiece.stamped {options : CommonOptions} {scope : NotificationScope}
    {handler : Handler} {start before after : Turn}
    (piece : PeerPiece options scope handler start before after)
    (unaccepted : ∀ accept result, handler ≠ .accept accept result)
    (stamped : before.Stamped rule) : after.Stamped rule := by
  cases piece with
  | complete completes earned => exact stamped.request _
  | push id frame => exact stamped.post trivial
  | release own listed completed =>
      refine stamped.posted (stamped.io.of_same rfl rfl rfl rfl) ?_
      simp [Handler.Stamped]
  | erase own completed =>
      exact ⟨stamped.io.of_same rfl rfl rfl rfl, stamped.posts, stamped.jobs⟩
  | dismiss own completed =>
      refine stamped.posted (stamped.io.of_same rfl rfl rfl rfl) ?_
      simp [Handler.Stamped]
  | send own listed =>
      refine ⟨stamped.io.of_same rfl rfl rfl rfl, ?_, stamped.jobs⟩
      refine (Appends.single ?_ _).forall_mem stamped.posts
      trivial
  | refuse own => exact stamped.enqueue trivial
  | speak own => exact stamped.runPeer options _ _
  | create own current => exact absurd own (unaccepted _ _)

/-- What a handler stamps anew: an attempt that it begins, a peer that it accepts, and what it
begins on the acceptor that is open. -/
structure Renews (scope : NotificationScope) (rule : Origin → Nat → Prop) (io : Io)
    (handler : Handler) : Prop where
  bind : ∀ token, handler = .bind token → scope.isCurrent token = true → io.acceptor = none →
    rule (.acceptor (io.nextAttempt + 1)) token
  accept : ∀ accept credentials, handler = .accept accept (.socket credentials) →
    scope.isCurrent accept.token = true → rule (.peer (io.nextPeerId + 1)) accept.token ∧
      ∀ attempt, io.acceptor = some attempt → rule (.acceptor attempt) accept.token
  probe : ∀ token, handler = .socketPathHealthCheck token → scope.isCurrent token = true →
    ∀ attempt, io.acceptor = some attempt → rule (.acceptor attempt) token

/-- Every handler keeps the rule. -/
theorem Stamped.run (stamped : turn.Stamped rule) {scope : NotificationScope} {handler : Handler}
    (own : handler.Stamped rule) (renews : Renews scope rule turn.io handler)
    (options : CommonOptions) (outcome : BindOutcome) :
    (turn.run options scope outcome handler).Stamped rule := by
  cases handler with
  | bind token => exact stamped.onBind scope (renews.bind token rfl) outcome
  | stop =>
      have pieces : PeerPieces options scope .stop turn turn.closeAcceptor
          turn.closeAcceptor.closeAllPeers := closeAllPeers_pieces rfl _
      have closed : turn.closeAcceptor.closeAllPeers.Stamped rule :=
        pieces.keeps _ (fun piece => piece.stamped (by simp)) stamped.closeAcceptor
      exact closed.closeSocketPathHealthCheckPeer
  | accept accept result =>
      refine stamped.onAccept scope own result ?_
      rintro credentials rfl
      exact renews.accept accept credentials rfl
  | peer ref handler => exact stamped.runPeer options ref handler
  | socketPathHealthCheck token =>
      exact stamped.onSocketPathHealthCheck scope (renews.probe token rfl) outcome
  | healthCheckTimeout probe errorCode => exact stamped.onHealthCheckTimeout scope own errorCode
  | healthCheckConnect probe errorCode => exact stamped.onHealthCheckConnect scope own errorCode
  | healthCheckResponse probe => exact stamped.onHealthCheckResponse scope probe
  | healthCheckFailed probe errorCode =>
      exact stamped.handleSocketPathHealthCheckFailed scope own
  | _ =>
      exact (run_peerPieces options scope outcome rfl turn).keeps _
        (fun piece => piece.stamped (by simp)) stamped

end Turn

/-! ## Jobs and the environment -/

section

variable {rule : Origin → Nat → Prop} {state state' : State}

/-- The work that a job leaves behind. -/
structure EffectStamped (rule : Origin → Nat → Prop) (effect : Effect) : Prop where
  posts : ∀ handler ∈ effect.posts, handler.Stamped rule
  next : ∀ job ∈ effect.next, job.Stamped rule
  jobs : ∀ job ∈ effect.jobs, job.Stamped rule
  delayed : ∀ job ∈ effect.delayed, job.Stamped rule

/-- Binds and health checks are posted with the token that is current. -/
theorem perform_stamped {job : Job} (stamped : job.Stamped rule) (dispatcher : Dispatcher)
    (fresh : job = .bind ∨ job = .socketPathHealthCheck →
      rule .session dispatcher.notificationScope.capture) (verdict : Bool) :
    EffectStamped rule (perform dispatcher job verdict).2 := by
  cases job with
  | bind =>
      have captured := fresh (.inl rfl)
      constructor <;> simp [perform, Handler.Stamped, captured]
  | socketPathHealthCheck =>
      have captured := fresh (.inr rfl)
      constructor <;> simp [perform, Handler.Stamped, captured]
  | signal slots sent =>
      cases slots with
      | accepted id credentials token =>
          cases sent <;> constructor <;>
            simp [perform, slot, acceptedSlot, Handler.Stamped, Job.Stamped]
          exact stamped
      | healthCheck probe =>
          cases current : dispatcher.notificationScope.isCurrent probe.token <;> cases sent <;>
            constructor <;> simp [perform, slot, healthCheckSlot, current, Handler.Stamped] <;>
              exact stamped
  | notify token notice =>
      simp only [perform]
      split
      · cases notice with
        | ready => cases verdict <;> constructor <;> simp [notify, Handler.Stamped]
        | _ => constructor <;> simp [notify, Job.Stamped]
      · constructor <;> simp
  | startHealthCheckTimer =>
      cases running : dispatcher.notificationScope.running <;> constructor <;>
        simp [perform, running, Job.Stamped]
  | debounceBindRetry =>
      cases running : dispatcher.notificationScope.running <;> constructor <;>
        simp [perform, running, Job.Stamped]
  | bindRetry generation =>
      by_cases due : dispatcher.bindRetryTask.generation = generation ∧
        dispatcher.notificationScope.running = true <;> constructor <;>
          simp [perform, due, Job.Stamped]
  | healthCheckTimerCall functionId =>
      by_cases due : dispatcher.socketPathHealthCheckTimer.currentFunctionId = functionId <;>
        cases active : dispatcher.socketPathHealthCheckTimer.function <;> constructor <;>
          simp [perform, due, active, Job.Stamped]
  | _ => constructor <;> simp [perform, ifExposed, Job.Stamped, Handler.Stamped]

theorem State.Stamped.accepts {input : Input} {events : List Event} (stamped : state.Stamped rule)
    (accepts : Accepts state input events state') : state'.Stamped rule := by
  have posted : ∀ {handler : Handler} {io : Io}, io.Stamped rule → handler.Stamped rule →
      State.Stamped rule (post handler { state with io }) := by
    intro handler io ofIo own
    have same : Configuration.All (Handler.Stamped rule) (Job.Stamped rule) { state with io } :=
      ⟨stamped.queued.handlers, stamped.queued.jobs, stamped.queued.delayed⟩
    exact ⟨ofIo, same.posted own⟩
  have enqueued : ∀ {job : Job}, job.Stamped rule → State.Stamped rule (enqueue job state) :=
    fun own => ⟨stamped.io, stamped.queued.enqueued own⟩
  cases accepts with
  | asyncStart => exact enqueued trivial
  | asyncStop => exact enqueued trivial
  | @acceptCompletes accept rest result outstanding =>
      refine posted ?_ (stamped.io.accepts accept (by simp [outstanding]))
      refine ⟨fun other listed => ?_, stamped.io.timeoutWaits, stamped.io.connects,
        stamped.io.connections⟩
      exact stamped.io.accepts other (outstanding ▸ List.mem_cons_of_mem _ listed)
  | @peerCompletes ref connection completion peer handler alive completes =>
      exact posted (stamped.io.connected (stamped.io.connections ref connection alive)) trivial
  | @healthCheckExpires probe outstanding =>
      refine posted ?_ (stamped.io.timeoutWaits probe outstanding)
      exact ⟨stamped.io.accepts, fun other listed => stamped.io.timeoutWaits other
        (List.mem_of_mem_filter listed), stamped.io.connects, stamped.io.connections⟩
  | @healthCheckConnects probe errorCode outstanding =>
      refine posted ?_ (stamped.io.connects probe outstanding)
      exact ⟨stamped.io.accepts, stamped.io.timeoutWaits, fun other listed =>
        stamped.io.connects other (List.mem_of_mem_filter listed), stamped.io.connections⟩
  | @destroy ref connection alive released =>
      refine ⟨⟨stamped.io.accepts, stamped.io.timeoutWaits, stamped.io.connects,
        fun other found alive' => ?_⟩, stamped.queued.handlers,
        fun job listed => stamped.queued.jobs job (List.mem_of_mem_filter listed),
        stamped.queued.delayed⟩
      by_cases same : other = ref
      · subst same
        simp at alive'
      · simp only [Function.update_of_ne same] at alive'
        exact stamped.io.connections other found alive'
  | _ => exact posted (stamped.io.of_same rfl rfl rfl rfl) trivial

/-- A step keeps the rule if the stamps that it makes anew do. -/
theorem step_stamped {options : CommonOptions} {label : Label} {events : List Event}
    (stamped : state.Stamped rule)
    (renews : ∀ handler outcome, label = .handler outcome →
      state.handlers.head? = some handler →
      Turn.Renews state.dispatcher.notificationScope rule state.io handler)
    (captures : ∀ job verdict, label = .job verdict → state.jobs.head? = some job →
      job = .bind ∨ job = .socketPathHealthCheck →
      rule .session state.dispatcher.notificationScope.capture)
    (step : (system options).step? state label = some (state', events)) : state'.Stamped rule := by
  cases Program.step_of_eq_some step with
  | @handler handler rest queued outcome =>
      have start : Turn.Stamped rule { io := state.io } := ⟨stamped.io, by simp, by simp⟩
      have turn := start.run (stamped.queued.handlers handler (by simp [queued]))
        (renews handler outcome rfl (by simp [queued])) options outcome
      exact ⟨turn.io, stamped.queued.handled queued turn.posts turn.jobs⟩
  | @job job rest queued verdict =>
      have effect := perform_stamped (stamped.queued.jobs job (by simp [queued])) state.dispatcher
        (captures job verdict rfl (by simp [queued])) verdict
      exact ⟨stamped.io, stamped.queued.performed queued effect.posts effect.next effect.jobs
        effect.delayed⟩
  | delayed idle due => exact ⟨stamped.io, stamped.queued.due due⟩
  | input accepted => exact stamped.accepts (accepts_of_eq_some accepted)

theorem initial_stamped (rule : Origin → Nat → Prop) : initial.Stamped rule := by
  refine ⟨⟨?_, ?_, ?_, ?_⟩, ?_, ?_, ?_⟩ <;> simp [initial]

end

end UnixDomainStream.Server
