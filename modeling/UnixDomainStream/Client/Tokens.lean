import UnixDomainStream.Client.Connection

/-!
# Captured tokens

A token goes from the handler that captured it to the notification that is compared with
it, along with the attempt that the notification is about.  A rule for such stamps that
holds of those made anew holds of all of them.
-/

namespace UnixDomainStream.Client

open Library
open Protocol (Bytes)

section

variable (rule : Nat → Nat → Prop)

def Handler.Stamped : Handler → Prop
  | .connectCompleted operation _ => rule operation.attempt operation.token
  | .handleConnectedSocket attempt _ _ token => rule attempt token
  | .connected attempt _ token => rule attempt token
  | .received attempt _ token => rule attempt token
  | .requestReceived attempt _ _ token => rule attempt token
  | .errorOccurred attempt _ token => rule attempt token
  | .closed attempt token => rule attempt token
  | _ => True

/-- A notification that was enqueued with the given token. -/
def Notice.Stamped (token : Nat) : Notice → Prop
  | .connectFailed attempt _ => rule attempt token
  | .verifyPeer attempt _ captured => rule attempt token ∧ rule attempt captured
  | .peerVerificationFailed attempt _ => rule attempt token
  | .connected attempt _ => rule attempt token
  | .received attempt _ => rule attempt token
  | .requestReceived attempt _ _ => rule attempt token
  | .errorOccurred attempt _ => rule attempt token
  | .closed attempt => rule attempt token
  | .scheduleReconnect => True

def Job.Stamped : Job → Prop
  | .notify token notice => notice.Stamped rule token
  | .signal attempt token _ => rule attempt token
  | _ => True

/-- The operations outstanding and the peer objects carry stamps as well. -/
structure Io.Stamped (io : Io) : Prop where
  connects : ∀ connect ∈ io.connects, rule connect.attempt connect.token
  connections : ∀ attempt connection, io.connections attempt = some connection →
    rule attempt connection.token

structure State.Stamped (state : State) : Prop where
  io : state.io.Stamped rule
  queued : state.All (Handler.Stamped rule) (Job.Stamped rule)

end

section

variable {rule other : Nat → Nat → Prop}
  (weaker : ∀ attempt token, rule attempt token → other attempt token)

include weaker

theorem Handler.Stamped.mono {handler : Handler} (stamped : handler.Stamped rule) :
    handler.Stamped other := by
  cases handler <;> first | exact weaker _ _ stamped | trivial

theorem Notice.Stamped.mono {token : Nat} {notice : Notice} (stamped : notice.Stamped rule token) :
    notice.Stamped other token := by
  cases notice with
  | verifyPeer => exact ⟨weaker _ _ stamped.1, weaker _ _ stamped.2⟩
  | scheduleReconnect => trivial
  | _ => exact weaker _ _ stamped

theorem Job.Stamped.mono {job : Job} (stamped : job.Stamped rule) : job.Stamped other := by
  cases job with
  | notify token notice => exact Notice.Stamped.mono weaker stamped
  | signal => exact weaker _ _ stamped
  | _ => trivial

theorem Io.Stamped.mono {io : Io} (stamped : io.Stamped rule) : io.Stamped other :=
  ⟨fun connect listed => weaker _ _ (stamped.connects connect listed),
    fun attempt connection alive => weaker _ _ (stamped.connections attempt connection alive)⟩

theorem State.Stamped.mono {state : State} (stamped : state.Stamped rule) :
    state.Stamped other :=
  ⟨stamped.io.mono weaker, stamped.queued.mono (fun _ => Handler.Stamped.mono weaker)
    fun _ => Job.Stamped.mono weaker⟩

end

/-- A peer object whose token keeps the rule takes the place of another. -/
theorem Io.Stamped.update {rule : Nat → Nat → Prop} {io : Io} (stamped : io.Stamped rule)
    {attempt : Nat} {connection : Connection} (own : rule attempt connection.token) :
    ∀ other after, Function.update io.connections attempt (some connection) other = some after →
      rule other after.token := by
  intro other after alive
  by_cases same : other = attempt
  · subst same
    simp only [Function.update_self, Option.some.injEq] at alive
    rw [← alive]
    exact own
  · simp only [Function.update_of_ne same] at alive
    exact stamped.connections other after alive

/-! ## Handlers -/

namespace Turn

structure Stamped (rule : Nat → Nat → Prop) (turn : Turn) : Prop where
  io : turn.io.Stamped rule
  posts : ∀ handler ∈ turn.posts, handler.Stamped rule
  jobs : ∀ job ∈ turn.jobs, job.Stamped rule

variable {rule : Nat → Nat → Prop} {turn : Turn}

namespace Stamped

theorem post (stamped : turn.Stamped rule) {handler : Handler} (own : handler.Stamped rule) :
    (turn.post handler).Stamped rule := by
  refine ⟨stamped.io, ?_, stamped.jobs⟩
  refine (Appends.single ?_ _).forall_mem stamped.posts
  exact own

theorem enqueue (stamped : turn.Stamped rule) {job : Job} (own : job.Stamped rule) :
    (turn.enqueue job).Stamped rule := by
  refine ⟨stamped.io, stamped.posts, ?_⟩
  refine (Appends.single ?_ _).forall_mem stamped.jobs
  exact own

/-- The timers and the callbacks of requests carry no stamps. -/
theorem request (stamped : turn.Stamped rule)
    (call : RequestManager Nat Nat → RequestTurn Nat Nat) : (turn.request call).Stamped rule := by
  refine ⟨⟨stamped.io.connects, stamped.io.connections⟩, ?_, ?_⟩
  · refine (Appends.map ?_ _).forall_mem stamped.posts
    intro timer _
    trivial
  · refine (Appends.map ?_ _).forall_mem stamped.jobs
    intro completion _
    trivial

theorem closeSocket (stamped : turn.Stamped rule) (attempt : Nat) :
    (turn.closeSocket attempt).Stamped rule := by
  refine ⟨⟨fun connect listed => stamped.io.connects connect (List.mem_of_mem_filter listed),
    stamped.io.connections⟩, ?_, stamped.jobs⟩
  refine (Appends.map ?_ _).forall_mem stamped.posts
  intro connect listed
  exact stamped.io.connects connect (List.mem_of_mem_filter listed)

/-- A peer object whose token keeps the rule takes its place. -/
theorem update (stamped : turn.Stamped rule) {attempt : Nat} {connection : Connection}
    (own : rule attempt connection.token) (connectingSocket peer : Option Nat) :
    Turn.Stamped rule { turn with io := { turn.io with
      connectingSocket, peer
      connections := Function.update turn.io.connections attempt (some connection) } } :=
  ⟨⟨stamped.io.connects, stamped.io.update own⟩, stamped.posts, stamped.jobs⟩

end Stamped

/-- What a handler stamps anew: an attempt that it begins, and the peer that it closes
because a request has timed out. -/
structure Renews (options : CommonOptions) (scope : NotificationScope) (rule : Nat → Nat → Prop)
    (io : Io) (handler : Handler) : Prop where
  connect : ∀ token, handler = .connect token → scope.isCurrent token = true →
    io.connectingSocket = none → io.peer = none → rule (io.nextAttempt + 1) token
  timer : ∀ timer token attempt, handler = .requestTimer timer →
    (io.requestManager.onTimer timer).2 = some token →
    options.invalidateConnectionOnRequestError = true → io.peer = some attempt →
    rule attempt token

section

variable {options : CommonOptions} {scope : NotificationScope} {handler : Handler}
  {start before after : Turn}

/-- A timeout callback is the one place where a token meets an attempt it was not
captured for. -/
theorem Tells.stamped {token : Nat} {notice : Notice}
    (told : Tells options turn.io handler token notice) (own : handler.Stamped rule)
    (renews : Renews options scope rule turn.io handler) : notice.Stamped rule token := by
  cases told with
  | verifyPeer connect credentials => exact ⟨own, own⟩
  | invalidated => trivial
  | timedOut called enabled current => exact renews.timer _ _ _ rfl called enabled current
  | _ => exact own

theorem QuietPiece.stamped (piece : QuietPiece handler before after)
    (stamped : before.Stamped rule) : after.Stamped rule := by
  cases piece with
  | fail _ _ => exact stamped.request _
  | closeSocket attempt => exact stamped.closeSocket attempt
  | push attempt frame => exact stamped.post trivial
  | @release attempt _ _ _ =>
      have closed : (before.post (.peer attempt (.close false))).Stamped rule :=
        stamped.post trivial
      exact ⟨⟨closed.io.connects, closed.io.connections⟩, closed.posts, closed.jobs⟩
  | _ => exact ⟨⟨stamped.io.connects, stamped.io.connections⟩, stamped.posts, stamped.jobs⟩

theorem Piece.stamped (piece : Piece options scope handler start before after)
    (own : handler.Stamped rule) (renews : Renews options scope rule start.io handler)
    (stamped : before.Stamped rule) : after.Stamped rule := by
  cases piece with
  | quiet piece => exact piece.stamped stamped
  | notify told => exact stamped.enqueue (told.stamped own renews)
  | respond _ _ => exact stamped.request _
  | report _ => exact stamped.request _
  | refuse _ => exact stamped.enqueue trivial
  | send _ _ =>
      refine ⟨⟨stamped.io.connects, stamped.io.connections⟩, ?_, stamped.jobs⟩
      refine (Appends.single ?_ _).forall_mem stamped.posts
      trivial
  | @speak attempt spoken connection result _ alive _ =>
      have known := stamped.io.connections attempt connection alive
      refine ⟨⟨stamped.io.connects, stamped.io.update known⟩, ?_, ?_⟩
      · refine (Appends.map ?_ _).forall_mem stamped.posts
        intro posted _
        trivial
      · refine (Appends.map ?_ _).forall_mem stamped.jobs
        intro sent _
        exact known
  | connectFailed errorCode begun current unconnecting unconnected =>
      refine Stamped.enqueue ?_ (renews.connect _ begun current unconnecting unconnected)
      exact ⟨⟨stamped.io.connects, stamped.io.connections⟩, stamped.posts, stamped.jobs⟩
  | connect begun current unconnecting unconnected =>
      refine ⟨⟨?_, stamped.io.connections⟩, stamped.posts, stamped.jobs⟩
      refine (Appends.single ?_ _).forall_mem stamped.io.connects
      exact renews.connect _ begun current unconnecting unconnected
  | @establish attempt token credentials decided =>
      subst decided
      let connection : Connection := { peer := {}, token }
      have known : rule attempt connection.token := own
      refine Stamped.post (Stamped.post (stamped.update known _ _) ?_) own
      trivial

end

/-- Every handler keeps the rule. -/
theorem Stamped.run (stamped : turn.Stamped rule) {options : CommonOptions}
    {scope : NotificationScope} {handler : Handler} (own : handler.Stamped rule)
    (renews : Renews options scope rule turn.io handler) (endpoint : Endpoint) :
    (turn.run options scope endpoint handler).Stamped rule :=
  (run_pieces options scope endpoint handler turn).keeps (Turn.Stamped rule)
    (fun piece => piece.stamped own renews) stamped

end Turn

/-! ## Jobs and the environment -/

section

variable {rule : Nat → Nat → Prop} {state state' : State}

/-- The work that a job leaves behind. -/
structure EffectStamped (rule : Nat → Nat → Prop) (effect : Effect) : Prop where
  posts : ∀ handler ∈ effect.posts, handler.Stamped rule
  next : ∀ job ∈ effect.next, job.Stamped rule
  jobs : ∀ job ∈ effect.jobs, job.Stamped rule
  delayed : ∀ job ∈ effect.delayed, job.Stamped rule

theorem perform_stamped {job : Job} (stamped : job.Stamped rule) (dispatcher : Dispatcher)
    (verdict : Bool) : EffectStamped rule (perform dispatcher job verdict).2 := by
  cases job with
  | signal attempt token sent =>
      cases sent <;> constructor <;> simp [perform, slot, Handler.Stamped] <;> exact stamped
  | notify token notice =>
      simp only [perform]
      split
      · cases notice with
        | verifyPeer => constructor <;> simp [notify, Handler.Stamped, stamped.2]
        | _ => constructor <;> simp [notify, Job.Stamped]
      · constructor <;> simp
  | scheduleReconnect => constructor <;> simp [perform, Job.Stamped]
  | reconnect generation =>
      constructor <;> simp [perform]
      rintro _ _ _ rfl
      trivial
  | _ => constructor <;> simp [perform, Job.Stamped, Handler.Stamped]

theorem State.Stamped.accepts {input : Input} {events : List Event} (stamped : state.Stamped rule)
    (accepts : Accepts state input events state') : state'.Stamped rule := by
  have posted : ∀ {handler : Handler} {io : Io}, io.Stamped rule → handler.Stamped rule →
      (post handler { state with io }).Stamped rule := by
    intro handler io ofIo own
    have same : Configuration.All (Handler.Stamped rule) (Job.Stamped rule) { state with io } :=
      ⟨stamped.queued.handlers, stamped.queued.jobs, stamped.queued.delayed⟩
    exact ⟨ofIo, same.posted own⟩
  have enqueued : ∀ {job : Job}, job.Stamped rule → (enqueue job state).Stamped rule :=
    fun own => ⟨stamped.io, stamped.queued.enqueued own⟩
  cases accepts with
  | asyncStart => exact enqueued trivial
  | asyncStop => exact enqueued trivial
  | asyncInvalidateConnection => exact enqueued trivial
  | connectCompletes outstanding genuine =>
      refine posted ?_ (stamped.io.connects _ outstanding)
      exact ⟨fun connect listed => stamped.io.connects connect (List.mem_of_mem_filter listed),
        stamped.io.connections⟩
  | @peerCompletes attempt connection completion peer handler alive completes =>
      have known := stamped.io.connections attempt connection alive
      exact posted ⟨stamped.io.connects, stamped.io.update known⟩ trivial
  | @destroy attempt connection alive released =>
      refine ⟨⟨stamped.io.connects, fun other connection' alive' => ?_⟩, stamped.queued.handlers,
        fun job listed => stamped.queued.jobs job (List.mem_of_mem_filter listed),
        stamped.queued.delayed⟩
      by_cases same : other = attempt
      · subst same
        simp at alive'
      · simp only [Function.update_of_ne same] at alive'
        exact stamped.io.connections other connection' alive'
  | _ => exact posted ⟨stamped.io.connects, stamped.io.connections⟩ trivial

/-- A step keeps the rule if the stamps that it makes anew do. -/
theorem step_stamped {options : CommonOptions} {label : Label} {events : List Event}
    (stamped : state.Stamped rule)
    (renews : ∀ handler endpoint, label = .handler endpoint →
      state.handlers.head? = some handler →
      Turn.Renews options state.dispatcher.notificationScope rule state.io handler)
    (step : (system options).step? state label = some (state', events)) : state'.Stamped rule := by
  cases Program.step_of_eq_some step with
  | @handler handler rest queued endpoint =>
      have start : Turn.Stamped rule { io := state.io } := ⟨stamped.io, by simp, by simp⟩
      have turn := start.run (stamped.queued.handlers handler (by simp [queued]))
        (renews handler endpoint rfl (by simp [queued])) endpoint
      exact ⟨turn.io, stamped.queued.handled queued turn.posts turn.jobs⟩
  | @job job rest queued verdict =>
      have effect := perform_stamped (stamped.queued.jobs job (by simp [queued])) state.dispatcher
        verdict
      exact ⟨stamped.io, stamped.queued.performed queued effect.posts effect.next effect.jobs
        effect.delayed⟩
  | delayed idle due => exact ⟨stamped.io, stamped.queued.due due⟩
  | input accepted => exact stamped.accepts (accepts_of_eq_some accepted)

theorem initial_stamped (rule : Nat → Nat → Prop) : initial.Stamped rule := by
  refine ⟨⟨?_, ?_⟩, ?_, ?_, ?_⟩ <;> simp [initial]

end

end UnixDomainStream.Client
