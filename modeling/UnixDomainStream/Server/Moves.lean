import UnixDomainStream.Server.Pieces

/-!
# What a handler does to the acceptor and to the probes

Most handlers leave both alone.  Of the others, each does one of a few things,
listed here once; the invariants of the binding are read off the list.
-/

namespace UnixDomainStream.Server

open Library
open Protocol (Bytes)

/-- The handler works on the acceptor, or on the wait or the connect of a probe. -/
def Handler.binds : Handler → Bool
  | .bind _ | .stop | .accept _ _ | .socketPathHealthCheck _ | .healthCheckTimeout _ _
  | .healthCheckConnect _ _ => true
  | _ => false

/-- The probe that a handler belongs to. -/
def Handler.probe? : Handler → Option Probe
  | .healthCheckTimeout probe _ | .healthCheckConnect probe _ => some probe
  | _ => none

/-- A notification about an acceptor, with its token. -/
def Job.bindNotice? : Job → Option (Nat × Notice)
  | .notify _ (.ready _ _) => none
  | .notify token notice => some (token, notice)
  | _ => none

/-- The notifications about acceptors among the jobs. -/
def bindNotices (jobs : List Job) : List (Nat × Notice) := jobs.filterMap Job.bindNotice?

@[simp]
theorem bindNotices_append (first second : List Job) :
    bindNotices (first ++ second) = bindNotices first ++ bindNotices second :=
  List.filterMap_append ..

/-- The job neither belongs to the session nor notifies about an acceptor. -/
def Job.aside (job : Job) : Bool := !job.isSession && job.bindNotice?.isNone

theorem bindNotices_aside {jobs jobs' : List Job}
    (appends : Appends (fun job => job.aside = true) jobs jobs') :
    bindNotices jobs' = bindNotices jobs := by
  refine appends.filterMap_eq fun job aside => ?_
  simp only [Job.aside, Bool.and_eq_true, Option.isNone_iff_eq_none] at aside
  exact aside.2

/-- What of the I/O concerns the acceptor and the probes. -/
def Io.binding (io : Io) :=
  (io.acceptor, io.accepts, io.nextAttempt, io.socketPathHealthCheckTimeout, io.nextTimeout,
    io.timeoutWaits, io.connects)

namespace Turn

variable {before after turn : Turn}

/-- A piece of a handler that concerns neither the acceptor nor the probes. -/
structure Aside (before after : Turn) : Prop where
  acceptor : after.io.acceptor = before.io.acceptor
  accepts : after.io.accepts = before.io.accepts
  nextAttempt : after.io.nextAttempt = before.io.nextAttempt
  timeout : after.io.socketPathHealthCheckTimeout = before.io.socketPathHealthCheckTimeout
  nextTimeout : after.io.nextTimeout = before.io.nextTimeout
  timeoutWaits : after.io.timeoutWaits = before.io.timeoutWaits
  connects : after.io.connects = before.io.connects
  posts : Appends (fun handler => handler.binds = false) before.posts after.posts
  jobs : Appends (fun job => job.aside = true) before.jobs after.jobs

namespace Aside

theorem of_io (posts : Appends (fun handler => handler.binds = false) before.posts after.posts)
    (jobs : Appends (fun job => job.aside = true) before.jobs after.jobs)
    (same : after.io.binding = before.io.binding) : Aside before after := by
  simp only [Io.binding, Prod.mk.injEq] at same
  obtain ⟨acceptor, accepts, nextAttempt, timeout, nextTimeout, timeoutWaits, connects⟩ := same
  exact ⟨acceptor, accepts, nextAttempt, timeout, nextTimeout, timeoutWaits, connects, posts, jobs⟩

theorem refl (turn : Turn) : Aside turn turn := of_io (.refl _) (.refl _) rfl

theorem trans {first second third : Turn} (left : Aside first second)
    (right : Aside second third) : Aside first third :=
  ⟨right.acceptor.trans left.acceptor, right.accepts.trans left.accepts,
    right.nextAttempt.trans left.nextAttempt, right.timeout.trans left.timeout,
    right.nextTimeout.trans left.nextTimeout, right.timeoutWaits.trans left.timeoutWaits,
    right.connects.trans left.connects, left.posts.trans right.posts,
    left.jobs.trans right.jobs⟩

end Aside

theorem post_aside {handler : Handler} (other : handler.binds = false) (turn : Turn) :
    Aside turn (turn.post handler) := by
  refine .of_io (.single ?_ _) (.refl _) rfl
  exact other

theorem enqueue_aside {job : Job} (aside : job.aside = true) (turn : Turn) :
    Aside turn (turn.enqueue job) := by
  refine .of_io (.refl _) (.single ?_ _) rfl
  exact aside

theorem request_aside (call : RequestManager Nat Nat → RequestTurn Nat Nat) (turn : Turn) :
    Aside turn (turn.request call) := by
  refine .of_io (.map ?_ _) (.map ?_ _) rfl
  · intro timer _
    rfl
  · intro completion _
    rfl

theorem runPeer_aside (options : CommonOptions) (ref : PeerRef) (handler : PeerHandler)
    (turn : Turn) : Aside turn (turn.runPeer options ref handler) := by
  unfold runPeer
  split
  · exact .refl turn
  · refine .of_io (.map ?_ _) ((Appends.map ?_ _).trans (.append ?_ _)) rfl
    · intro posted _
      rfl
    · intro sent _
      rfl
    · intro job
      cases ref <;> split <;> simp +contextual [PeerRef.peerClosed, Job.aside, Job.isSession,
        Job.bindNotice?]

theorem PeerPiece.aside {options : CommonOptions} {scope : NotificationScope}
    {handler : Handler} {start : Turn}
    (piece : PeerPiece options scope handler start before after) : Aside before after := by
  cases piece with
  | complete completes earned => exact request_aside _ _
  | push id frame => exact post_aside rfl _
  | release own listed completed =>
      refine .of_io (.single ?_ _) (.refl _) rfl
      rfl
  | erase own completed => exact .of_io (.refl _) (.refl _) rfl
  | dismiss own completed =>
      refine .of_io (.map ?_ _) (.refl _) rfl
      intro id _
      rfl
  | send own listed =>
      refine .of_io (.single ?_ _) (.refl _) rfl
      rfl
  | refuse own => exact enqueue_aside rfl _
  | speak own => exact runPeer_aside options _ _ _
  | create own current =>
      refine .of_io (.single ?_ _) (.refl _) rfl
      rfl

/-- The handlers about peers and requests leave the acceptor and the probes alone. -/
theorem run_aside (options : CommonOptions) (scope : NotificationScope)
    (outcome : BindOutcome) {handler : Handler} (serves : handler.serves = true)
    (turn : Turn) : Aside turn (turn.run options scope outcome handler) :=
  (run_peerPieces options scope outcome serves turn).effect .refl .trans PeerPiece.aside

theorem closeAllPeers_aside (turn : Turn) : Aside turn turn.closeAllPeers := by
  have pieces : PeerPieces {} {} .stop turn turn turn.closeAllPeers := closeAllPeers_pieces rfl turn
  exact pieces.effect .refl .trans PeerPiece.aside

/-- Ending the peer of a probe leaves its wait and its connect alone. -/
theorem resetProbePeer_aside (turn : Turn) : Aside turn turn.resetProbePeer := by
  unfold resetProbePeer
  split
  · exact .refl turn
  · exact (post_aside rfl turn).trans (.of_io (.refl _) (.refl _) rfl)

/-! ## The acceptor -/

/-- The handler reports a failure of the accept loop or of a probe, which was started
on the acceptor `attempt` with the given token. -/
inductive Failure (scope : NotificationScope) (io : Io) : Handler → Nat → Nat → Prop where
  | accept {accept : Accept} {errorCode : ErrorCode} (genuine : errorCode ≠ .operationAborted)
      (current : scope.isCurrent accept.token = true) :
      Failure scope io (.accept accept (.error errorCode)) accept.attempt accept.token
  | timeout {probe : Probe} (current : isCurrentProbe scope probe { io } = true) :
      Failure scope io (.healthCheckTimeout probe .success) probe.attempt probe.token
  | connect {probe : Probe} {errorCode : ErrorCode} (failed : errorCode ≠ .success)
      (current : isCurrentProbe scope probe { io } = true) :
      Failure scope io (.healthCheckConnect probe errorCode) probe.attempt probe.token
  | peer {probe : Probe} {errorCode : ErrorCode}
      (current : isCurrentProbe scope probe { io } = true) :
      Failure scope io (.healthCheckFailed probe errorCode) probe.attempt probe.token
  | endpoint {attempt token : Nat} (current : scope.isCurrent token = true)
      (bound : io.acceptor = some attempt) :
      Failure scope io (.socketPathHealthCheck token) attempt token

theorem Failure.current {scope : NotificationScope} {io : Io} {handler : Handler}
    {attempt token : Nat} (failure : Failure scope io handler attempt token) :
    scope.isCurrent token = true := by
  cases failure with
  | accept genuine current => exact current
  | timeout current => exact (Bool.and_eq_true_iff.mp current).1
  | connect failed current => exact (Bool.and_eq_true_iff.mp current).1
  | peer current => exact (Bool.and_eq_true_iff.mp current).1
  | endpoint current bound => exact current

/-- The handler has an effect on the acceptor, whatever its outcome. -/
def Engages (scope : NotificationScope) (io : Io) : Handler → Prop
  | .bind token => scope.isCurrent token = true ∧ io.acceptor = none
  | .accept accept result =>
      scope.isCurrent accept.token = true ∧ result ≠ .error .operationAborted
  | .stop => True
  | _ => False

/-- What a handler does to the acceptor. -/
inductive AcceptorMove (scope : NotificationScope) (handler : Handler) (io : Io)
    (after : Turn) : Prop where
  | kept (inert : ¬ Engages scope io handler) (acceptor : after.io.acceptor = io.acceptor)
      (accepts : after.io.accepts = io.accepts)
      (nextAttempt : after.io.nextAttempt = io.nextAttempt)
      (notices : bindNotices after.jobs = [])
  | bound {token : Nat} (own : handler = .bind token) (current : scope.isCurrent token = true)
      (unbound : io.acceptor = none) (acceptor : after.io.acceptor = some (io.nextAttempt + 1))
      (accepts : after.io.accepts = io.accepts ++ [⟨io.nextAttempt + 1, token⟩])
      (nextAttempt : after.io.nextAttempt = io.nextAttempt + 1)
      (notices : bindNotices after.jobs = [(token, .bound (io.nextAttempt + 1))])
  | bindFailed {token : Nat} {errorCode : ErrorCode} (own : handler = .bind token)
      (current : scope.isCurrent token = true) (unbound : io.acceptor = none)
      (acceptor : after.io.acceptor = none) (accepts : after.io.accepts = [])
      (nextAttempt : after.io.nextAttempt = io.nextAttempt + 1)
      (notices : bindNotices after.jobs =
        [(token, .bindFailed (io.nextAttempt + 1) errorCode)])
  | listened {accept : Accept} {credentials : PeerCredentials}
      (own : handler = .accept accept (.socket credentials))
      (current : scope.isCurrent accept.token = true)
      (acceptor : after.io.acceptor = io.acceptor)
      (accepts : after.io.accepts =
        io.accepts ++ io.acceptor.toList.map fun attempt => ⟨attempt, accept.token⟩)
      (nextAttempt : after.io.nextAttempt = io.nextAttempt)
      (notices : bindNotices after.jobs = [])
  | closed {attempt token : Nat} (failure : Failure scope io handler attempt token)
      (acceptor : after.io.acceptor = none) (accepts : after.io.accepts = [])
      (nextAttempt : after.io.nextAttempt = io.nextAttempt)
      (notices : bindNotices after.jobs = [(token, .closed attempt)])
  | stopped (own : handler = .stop) (acceptor : after.io.acceptor = none)
      (accepts : after.io.accepts = []) (nextAttempt : after.io.nextAttempt = io.nextAttempt)
      (notices : bindNotices after.jobs = [])

variable {scope : NotificationScope} {io : Io}

theorem Aside.acceptorMove {handler : Handler} {after : Turn} (aside : Aside { io } after)
    (inert : ¬ Engages scope io handler) : AcceptorMove scope handler io after :=
  .kept inert aside.acceptor aside.accepts aside.nextAttempt (bindNotices_aside aside.jobs)

theorem onBind_acceptorMove (scope : NotificationScope) (token : Nat) (outcome : BindOutcome)
    (io : Io) : AcceptorMove scope (.bind token) io (onBind scope token outcome { io }) := by
  unfold onBind
  split
  case isTrue refused =>
    refine .kept ?_ rfl rfl rfl rfl
    rintro ⟨current, unbound⟩
    simp [current, unbound] at refused
  case isFalse admitted =>
    have current : scope.isCurrent token = true := by
      by_contra stale
      simp [stale] at admitted
    have unbound : io.acceptor = none := by
      simpa [current] using admitted
    dsimp only
    split
    case h_1 errorCode => exact .bindFailed rfl current unbound rfl rfl rfl rfl
    case h_2 errorCode _ => exact .bindFailed rfl current unbound rfl rfl rfl rfl
    case h_3 =>
      simp only [accept, enqueue, current, if_true]
      exact .bound rfl current unbound rfl rfl rfl rfl

theorem onAccept_acceptorMove (scope : NotificationScope) (accept : Accept)
    (result : AcceptResult) (io : Io) :
    AcceptorMove scope (.accept accept result) io (onAccept scope accept result { io }) := by
  unfold onAccept
  split
  case isTrue stale =>
    refine .kept ?_ rfl rfl rfl rfl
    rintro ⟨current, _⟩
    simp [current] at stale
  case isFalse fresh =>
    have current : scope.isCurrent accept.token = true := by simpa using fresh
    cases result with
    | error errorCode =>
        dsimp only
        split
        case isTrue aborted =>
          refine .kept ?_ rfl rfl rfl rfl
          rintro ⟨_, genuine⟩
          exact genuine (by rw [aborted])
        case isFalse genuine => exact .closed (.accept genuine current) rfl rfl rfl rfl
    | socket credentials =>
        simp only [handleAcceptedSocket, current, Bool.not_true, Bool.false_eq_true, if_false]
        cases bound : io.acceptor with
        | none =>
            refine .listened rfl current ?_ ?_ ?_ ?_ <;>
              simp [Turn.accept, post, emit, bound, bindNotices]
        | some attempt =>
            refine .listened rfl current ?_ ?_ ?_ ?_ <;>
              simp [Turn.accept, post, emit, bound, current, bindNotices]

/-- What the failure of the current probe does. -/
structure Fails (probe : Probe) (turn after : Turn) : Prop where
  acceptor : after.io.acceptor = none
  accepts : after.io.accepts = []
  nextAttempt : after.io.nextAttempt = turn.io.nextAttempt
  timeout : after.io.socketPathHealthCheckTimeout = none
  notices : bindNotices after.jobs =
    bindNotices turn.jobs ++ [(probe.token, .closed probe.attempt)]

theorem handleSocketPathHealthCheckFailed_fails {probe : Probe} {turn : Turn}
    (current : isCurrentProbe scope probe turn = true) :
    Fails probe turn (turn.handleSocketPathHealthCheckFailed scope probe) := by
  have timeout : turn.io.socketPathHealthCheckTimeout = some probe.timeout := by
    simpa using (Bool.and_eq_true_iff.mp current).2
  have aside := resetProbePeer_aside turn.resetTimeout
  have reset : turn.resetTimeout.io.socketPathHealthCheckTimeout = none := by
    simp [resetTimeout, timeout]
  have jobs : turn.resetTimeout.jobs = turn.jobs := by
    simp [resetTimeout, timeout, cancelTimeout]
  have attempts : turn.resetTimeout.io.nextAttempt = turn.io.nextAttempt := by
    simp [resetTimeout, timeout, cancelTimeout]
  simp only [handleSocketPathHealthCheckFailed, current, Bool.not_true, Bool.false_eq_true,
    if_false]
  refine ⟨rfl, rfl, aside.nextAttempt.trans attempts, aside.timeout.trans reset, ?_⟩
  have kept := bindNotices_aside aside.jobs
  rw [jobs] at kept
  simp only [enqueue, closeAcceptor, bindNotices_append]
  exact congrArg (· ++ _) kept

theorem handleSocketPathHealthCheckFailed_stale {probe : Probe} {turn : Turn}
    (stale : isCurrentProbe scope probe turn = false) :
    turn.handleSocketPathHealthCheckFailed scope probe = turn := by
  simp [handleSocketPathHealthCheckFailed, stale]

/-- A failure that a handler reports for its own probe. -/
theorem failed_acceptorMove {handler : Handler} {probe : Probe} {turn : Turn}
    (inert : ¬ Engages scope io handler)
    (failure : isCurrentProbe scope probe { io } = true →
      Failure scope io handler probe.attempt probe.token)
    (acceptor : turn.io.acceptor = io.acceptor) (accepts : turn.io.accepts = io.accepts)
    (nextAttempt : turn.io.nextAttempt = io.nextAttempt)
    (timeout : turn.io.socketPathHealthCheckTimeout = io.socketPathHealthCheckTimeout)
    (jobs : turn.jobs = []) :
    AcceptorMove scope handler io (turn.handleSocketPathHealthCheckFailed scope probe) := by
  have same : isCurrentProbe scope probe turn = isCurrentProbe scope probe { io } := by
    simp only [isCurrentProbe, timeout]
  cases current : isCurrentProbe scope probe { io } with
  | true =>
      have fails := handleSocketPathHealthCheckFailed_fails (same.trans current)
      refine .closed (failure current) fails.acceptor fails.accepts
        (fails.nextAttempt.trans nextAttempt) ?_
      rw [fails.notices, jobs]
      rfl
  | false =>
      rw [handleSocketPathHealthCheckFailed_stale (same.trans current)]
      exact .kept inert acceptor accepts nextAttempt (by rw [jobs]; rfl)

theorem onSocketPathHealthCheck_acceptorMove (scope : NotificationScope) (token : Nat)
    (outcome : BindOutcome) (io : Io) :
    AcceptorMove scope (.socketPathHealthCheck token) io
      (onSocketPathHealthCheck scope token outcome { io }) := by
  unfold onSocketPathHealthCheck
  split
  · exact .kept id rfl rfl rfl rfl
  case h_2 attempt bound =>
    split
    · exact .kept id rfl rfl rfl rfl
    case isFalse admitted =>
      have current : scope.isCurrent token = true := by
        by_contra stale
        simp [stale] at admitted
      dsimp only
      split
      · have fails := @handleSocketPathHealthCheckFailed_fails scope
          ⟨io.nextTimeout + 1, token, attempt⟩
          { io := { io with
              nextTimeout := io.nextTimeout + 1
              socketPathHealthCheckTimeout := some (io.nextTimeout + 1) } }
          (by simp only [isCurrentProbe, current, beq_self_eq_true, Bool.and_self])
        exact .closed (.endpoint current bound) fails.acceptor fails.accepts fails.nextAttempt
          fails.notices
      · exact .kept id rfl rfl rfl rfl

theorem onHealthCheckTimeout_acceptorMove (scope : NotificationScope) (probe : Probe)
    (errorCode : ErrorCode) (io : Io) :
    AcceptorMove scope (.healthCheckTimeout probe errorCode) io
      (onHealthCheckTimeout scope probe errorCode { io }) := by
  unfold onHealthCheckTimeout
  dsimp only
  split
  case isTrue expired =>
    subst expired
    exact failed_acceptorMove id .timeout rfl rfl rfl rfl rfl
  case isFalse => exact .kept id rfl rfl rfl rfl

theorem onHealthCheckConnect_acceptorMove (scope : NotificationScope) (probe : Probe)
    (errorCode : ErrorCode) (io : Io) :
    AcceptorMove scope (.healthCheckConnect probe errorCode) io
      (onHealthCheckConnect scope probe errorCode { io }) := by
  unfold onHealthCheckConnect
  split
  · exact .kept id rfl rfl rfl rfl
  · split
    case isTrue failed => exact failed_acceptorMove id (.connect failed) rfl rfl rfl rfl rfl
    case isFalse => exact .kept id rfl rfl rfl rfl

theorem onHealthCheckResponse_acceptorMove (scope : NotificationScope) (probe : Probe)
    (io : Io) : AcceptorMove scope (.healthCheckResponse probe) io
      (onHealthCheckResponse scope probe { io }) := by
  unfold onHealthCheckResponse
  split
  · have aside := resetProbePeer_aside ({ io } : Turn).resetTimeout
    have reset : ({ io } : Turn).resetTimeout.io.acceptor = io.acceptor ∧
        ({ io } : Turn).resetTimeout.io.accepts = io.accepts ∧
        ({ io } : Turn).resetTimeout.io.nextAttempt = io.nextAttempt ∧
        ({ io } : Turn).resetTimeout.jobs = [] := by
      unfold resetTimeout
      split <;> exact ⟨rfl, rfl, rfl, rfl⟩
    obtain ⟨acceptor, accepts, nextAttempt, jobs⟩ := reset
    refine .kept id (aside.acceptor.trans acceptor) (aside.accepts.trans accepts)
      (aside.nextAttempt.trans nextAttempt) ?_
    exact (bindNotices_aside aside.jobs).trans (by rw [jobs]; rfl)
  · exact .kept id rfl rfl rfl rfl

theorem stop_acceptorMove (scope : NotificationScope) (io : Io) :
    AcceptorMove scope .stop io
      ({ io } : Turn).closeAcceptor.closeAllPeers.closeSocketPathHealthCheckPeer := by
  have peers := closeAllPeers_aside ({ io } : Turn).closeAcceptor
  have probe := resetProbePeer_aside ({ io } : Turn).closeAcceptor.closeAllPeers.resetTimeout
  generalize ({ io } : Turn).closeAcceptor.closeAllPeers = turn at peers probe ⊢
  have reset : turn.resetTimeout.io.acceptor = turn.io.acceptor ∧
      turn.resetTimeout.io.accepts = turn.io.accepts ∧
      turn.resetTimeout.io.nextAttempt = turn.io.nextAttempt ∧
      turn.resetTimeout.jobs = turn.jobs := by
    unfold resetTimeout
    split <;> exact ⟨rfl, rfl, rfl, rfl⟩
  obtain ⟨acceptor, accepts, nextAttempt, jobs⟩ := reset
  refine .stopped rfl (probe.acceptor.trans (acceptor.trans peers.acceptor))
    (probe.accepts.trans (accepts.trans peers.accepts))
    (probe.nextAttempt.trans (nextAttempt.trans peers.nextAttempt)) ?_
  exact (bindNotices_aside probe.jobs).trans (jobs ▸ bindNotices_aside peers.jobs)

/-- Every handler does one of the listed things to the acceptor. -/
theorem run_acceptorMove (options : CommonOptions) (scope : NotificationScope)
    (outcome : BindOutcome) (handler : Handler) (io : Io) :
    AcceptorMove scope handler io (run options scope outcome handler { io }) := by
  cases handler with
  | bind token => exact onBind_acceptorMove scope token outcome io
  | stop => exact stop_acceptorMove scope io
  | accept accept result => exact onAccept_acceptorMove scope accept result io
  | peer ref handler => exact (runPeer_aside options ref handler _).acceptorMove id
  | socketPathHealthCheck token => exact onSocketPathHealthCheck_acceptorMove scope token outcome io
  | healthCheckTimeout probe errorCode =>
      exact onHealthCheckTimeout_acceptorMove scope probe errorCode io
  | healthCheckConnect probe errorCode =>
      exact onHealthCheckConnect_acceptorMove scope probe errorCode io
  | healthCheckResponse probe => exact onHealthCheckResponse_acceptorMove scope probe io
  | healthCheckFailed probe errorCode => exact failed_acceptorMove id .peer rfl rfl rfl rfl rfl
  | _ => exact (run_aside options scope outcome rfl { io }).acceptorMove id

/-! ## The probes -/

/-- The probe has its wait or its connect outstanding, or a handler of one queued. -/
def Mentions (turn : Turn) (probe : Probe) : Prop :=
  probe ∈ turn.io.timeoutWaits ∨ probe ∈ turn.io.connects ∨
    ∃ handler ∈ turn.posts, handler.probe? = some probe

/-- A piece of a handler that starts no probe and queues no work of the session. -/
structure Sheds (before after : Turn) : Prop where
  nextTimeout : after.io.nextTimeout = before.io.nextTimeout
  mentioned : ∀ probe, after.Mentions probe → before.Mentions probe
  posts : Appends (fun handler => handler.isSession = false) before.posts after.posts
  jobs : Appends (fun job => job.isSession = false) before.jobs after.jobs

namespace Sheds

theorem refl (turn : Turn) : Sheds turn turn := ⟨rfl, fun _ => id, .refl _, .refl _⟩

theorem trans {first second third : Turn} (left : Sheds first second)
    (right : Sheds second third) : Sheds first third :=
  ⟨right.nextTimeout.trans left.nextTimeout,
    fun probe mentioned => left.mentioned probe (right.mentioned probe mentioned),
    left.posts.trans right.posts, left.jobs.trans right.jobs⟩

/-- A piece that posts handlers of no probe but those outstanding. -/
theorem of_posts {more : List Handler} (nextTimeout : after.io.nextTimeout = before.io.nextTimeout)
    (timeoutWaits : ∀ probe ∈ after.io.timeoutWaits, probe ∈ before.io.timeoutWaits)
    (connects : ∀ probe ∈ after.io.connects, probe ∈ before.io.connects)
    (posts : after.posts = before.posts ++ more)
    (own : ∀ handler ∈ more, handler.isSession = false ∧
      ∀ probe, handler.probe? = some probe → before.Mentions probe)
    (jobs : Appends (fun job => job.isSession = false) before.jobs after.jobs) :
    Sheds before after := by
  refine ⟨nextTimeout, ?_, posts ▸ .append (fun handler member => (own handler member).1) _, jobs⟩
  rintro probe (waiting | connecting | ⟨handler, member, same⟩)
  · exact .inl (timeoutWaits probe waiting)
  · exact .inr (.inl (connects probe connecting))
  · rw [posts] at member
    rcases List.mem_append.mp member with old | new
    · exact .inr (.inr ⟨handler, old, same⟩)
    · exact (own handler new).2 probe same

end Sheds

theorem Aside.sheds (aside : Aside before after) : Sheds before after := by
  obtain ⟨more, posts, other⟩ := aside.posts
  refine .of_posts aside.nextTimeout (fun probe => aside.timeoutWaits ▸ id)
    (fun probe => aside.connects ▸ id) posts (fun handler member => ?_) (aside.jobs.mono ?_)
  · have unbound := other handler member
    cases handler <;> simp_all [Handler.binds, Handler.isSession, Handler.probe?]
  · intro job unbound
    simp only [Job.aside, Bool.and_eq_true, Bool.not_eq_true'] at unbound
    exact unbound.1

theorem cancelTimeout_sheds (timeout : Nat) (turn : Turn) :
    Sheds turn (turn.cancelTimeout timeout) := by
  refine .of_posts rfl (fun _ member => (List.mem_filter.mp member).1) (fun _ => id) rfl ?_
    (.refl _)
  intro handler member
  obtain ⟨probe, waiting, rfl⟩ := List.mem_map.mp member
  refine ⟨rfl, fun other same => ?_⟩
  cases same
  exact .inl (List.mem_filter.mp waiting).1

theorem resetTimeout_sheds (turn : Turn) : Sheds turn turn.resetTimeout := by
  unfold resetTimeout
  split
  · exact .refl turn
  case h_2 timeout _ =>
    have cancelled := cancelTimeout_sheds timeout turn
    exact ⟨cancelled.nextTimeout, cancelled.mentioned, cancelled.posts, cancelled.jobs⟩

theorem InternalPiece.sheds (piece : InternalPiece before after) : Sheds before after := by
  cases piece with
  | closeAcceptor =>
      refine .of_posts rfl (fun _ => id) (fun _ => id) rfl ?_ (.refl _)
      intro handler member
      obtain ⟨accept, _, rfl⟩ := List.mem_map.mp member
      exact ⟨rfl, by simp [Handler.probe?]⟩
  | cancelTimeout timeout => exact cancelTimeout_sheds timeout _
  | closeProbeSocket timeout =>
      refine .of_posts rfl (fun _ => id) (fun _ member => (List.mem_filter.mp member).1) rfl ?_
        (.refl _)
      intro handler member
      obtain ⟨probe, connecting, rfl⟩ := List.mem_map.mp member
      refine ⟨rfl, fun other same => ?_⟩
      cases same
      exact .inr (.inl (List.mem_filter.mp connecting).1)
  | closeSocketPathHealthCheckPeer =>
      exact (resetTimeout_sheds _).trans (resetProbePeer_aside _).sheds
  | notify internal =>
      refine .of_posts rfl (fun _ => id) (fun _ => id) (List.append_nil _).symm (by simp)
        (.single ?_ _)
      rfl
  | bind attempt acceptor => exact ⟨rfl, fun _ => id, .refl _, .refl _⟩
  | listen accept => exact ⟨rfl, fun _ => id, .refl _, .refl _⟩

theorem InternalPieces.sheds (pieces : InternalPieces before after) : Sheds before after :=
  pieces.effect .refl .trans InternalPiece.sheds

/-- Only the handlers about probes begin anything for one. -/
theorem run_sheds (options : CommonOptions) (scope : NotificationScope)
    (outcome : BindOutcome) {handler : Handler} (unprobed : handler.probes = false)
    (turn : Turn) : Sheds turn (turn.run options scope outcome handler) := by
  refine (run_pieces options scope outcome handler turn).effect .refl .trans ?_
  intro before after piece
  cases piece with
  | internal piece => exact piece.sheds
  | peer piece => exact piece.aside.sheds
  | probe own => exact absurd (own.symm.trans unprobed) (by decide)

/-- The wait of the current probe, as far as a handler leaves the probe in progress. -/
structure ProbeMove (scope : NotificationScope) (handler : Handler) (io : Io)
    (after : Turn) : Prop where
  nextTimeout : io.nextTimeout ≤ after.io.nextTimeout
  mentioned : ∀ probe, after.Mentions probe → ({ io } : Turn).Mentions probe ∨
    (probe.timeout = io.nextTimeout + 1 ∧ after.io.nextTimeout = io.nextTimeout + 1 ∧
      scope.isCurrent probe.token = true)
  timeout : ∀ timeout, after.io.socketPathHealthCheckTimeout = some timeout →
    (io.socketPathHealthCheckTimeout = some timeout ∧
      (∀ probe, probe ∈ io.timeoutWaits → probe.timeout = timeout →
        probe ∈ after.io.timeoutWaits ∨ ∃ other errorCode,
          handler = .healthCheckConnect other errorCode ∧ other.timeout = timeout ∧
            scope.isCurrent other.token = false) ∧
      ∀ probe, handler = .healthCheckTimeout probe .success → probe.timeout = timeout →
        scope.isCurrent probe.token = false) ∨
    (timeout = io.nextTimeout + 1 ∧ after.io.nextTimeout = timeout ∧
      ∃ probe ∈ after.io.timeoutWaits, probe.timeout = timeout ∧
        scope.isCurrent probe.token = true)
  posts : ∀ handler ∈ after.posts, handler.isSession = false
  jobs : ∀ job ∈ after.jobs, job.isSession = false

section

variable {handler : Handler} {after : Turn}

/-- A handler that starts no probe. -/
theorem Sheds.probeMove (sheds : Sheds { io } after)
    (timeout : ∀ timeout, after.io.socketPathHealthCheckTimeout = some timeout →
      io.socketPathHealthCheckTimeout = some timeout ∧
        (∀ probe, probe ∈ io.timeoutWaits → probe.timeout = timeout →
          probe ∈ after.io.timeoutWaits ∨ ∃ other errorCode,
            handler = .healthCheckConnect other errorCode ∧ other.timeout = timeout ∧
              scope.isCurrent other.token = false) ∧
        ∀ probe, handler = .healthCheckTimeout probe .success → probe.timeout = timeout →
          scope.isCurrent probe.token = false) : ProbeMove scope handler io after where
  nextTimeout := sheds.nextTimeout.ge
  mentioned probe mentioned := .inl (sheds.mentioned probe mentioned)
  timeout timeout' same := .inl (timeout timeout' same)
  posts := sheds.posts.forall_mem nofun
  jobs := sheds.jobs.forall_mem nofun

/-- A handler that ends the probe. -/
theorem Sheds.probeMove_none (sheds : Sheds { io } after)
    (ended : after.io.socketPathHealthCheckTimeout = none) : ProbeMove scope handler io after :=
  sheds.probeMove fun timeout same => by simp [ended] at same

/-- A handler that leaves the probe as it is, and is not that of its wait. -/
theorem Sheds.probeMove_kept (sheds : Sheds { io } after)
    (kept : after.io.socketPathHealthCheckTimeout = io.socketPathHealthCheckTimeout)
    (waits : after.io.timeoutWaits = io.timeoutWaits)
    (other : ∀ probe, handler = .healthCheckTimeout probe .success →
      isCurrentProbe scope probe { io } = false) : ProbeMove scope handler io after := by
  refine sheds.probeMove fun timeout same =>
    ⟨kept ▸ same, fun probe waiting _ => .inl (waits ▸ waiting), ?_⟩
  intro probe own counted
  have stale := other probe own
  rw [kept] at same
  simpa [isCurrentProbe, same, counted] using stale

theorem Aside.probeMove (aside : Aside { io } after)
    (other : ∀ probe, handler ≠ .healthCheckTimeout probe .success) :
    ProbeMove scope handler io after :=
  aside.sheds.probeMove_kept aside.timeout aside.timeoutWaits
    fun probe own => absurd own (other probe)

end

theorem closeSocketPathHealthCheckPeer_timeout (turn : Turn) :
    turn.closeSocketPathHealthCheckPeer.io.socketPathHealthCheckTimeout = none := by
  refine (resetProbePeer_aside turn.resetTimeout).timeout.trans ?_
  unfold resetTimeout
  split
  · assumption
  · rfl

theorem accept_probe (scope : NotificationScope) (token : Nat) (turn : Turn) :
    (turn.accept scope token).io.socketPathHealthCheckTimeout =
        turn.io.socketPathHealthCheckTimeout ∧
      (turn.accept scope token).io.timeoutWaits = turn.io.timeoutWaits := by
  unfold accept
  split
  · exact ⟨rfl, rfl⟩
  · split <;> exact ⟨rfl, rfl⟩

theorem onBind_probe (scope : NotificationScope) (token : Nat) (outcome : BindOutcome)
    (turn : Turn) :
    (turn.onBind scope token outcome).io.socketPathHealthCheckTimeout =
        turn.io.socketPathHealthCheckTimeout ∧
      (turn.onBind scope token outcome).io.timeoutWaits = turn.io.timeoutWaits := by
  unfold onBind
  split
  · exact ⟨rfl, rfl⟩
  · dsimp only
    split
    · exact ⟨rfl, rfl⟩
    · exact ⟨rfl, rfl⟩
    · exact accept_probe scope token _

theorem onAccept_probe (scope : NotificationScope) (accept : Accept) (result : AcceptResult)
    (turn : Turn) :
    (turn.onAccept scope accept result).io.socketPathHealthCheckTimeout =
        turn.io.socketPathHealthCheckTimeout ∧
      (turn.onAccept scope accept result).io.timeoutWaits = turn.io.timeoutWaits := by
  unfold onAccept
  split
  · exact ⟨rfl, rfl⟩
  · split
    · split <;> exact ⟨rfl, rfl⟩
    · unfold handleAcceptedSocket
      split
      · exact ⟨rfl, rfl⟩
      · exact accept_probe scope accept.token _

theorem handleSocketPathHealthCheckFailed_probeMove {handler : Handler} {probe : Probe}
    {turn : Turn} (sheds : Sheds { io } turn)
    (timeout : turn.io.socketPathHealthCheckTimeout = io.socketPathHealthCheckTimeout)
    (waits : turn.io.timeoutWaits = io.timeoutWaits)
    (own : ∀ other, handler = .healthCheckTimeout other .success → other = probe) :
    ProbeMove scope handler io (turn.handleSocketPathHealthCheckFailed scope probe) := by
  have same : isCurrentProbe scope probe turn = isCurrentProbe scope probe { io } := by
    simp only [isCurrentProbe, timeout]
  have shed := sheds.trans (handleSocketPathHealthCheckFailed_pieces scope probe turn).sheds
  cases current : isCurrentProbe scope probe { io } with
  | true =>
      exact shed.probeMove_none
        (handleSocketPathHealthCheckFailed_fails (same.trans current)).timeout
  | false =>
      rw [handleSocketPathHealthCheckFailed_stale (same.trans current)]
      exact sheds.probeMove_kept timeout waits fun other mine => own other mine ▸ current

theorem onSocketPathHealthCheck_probeMove (scope : NotificationScope) (token : Nat)
    (outcome : BindOutcome) (io : Io) :
    ProbeMove scope (.socketPathHealthCheck token) io
      (onSocketPathHealthCheck scope token outcome { io }) := by
  unfold onSocketPathHealthCheck
  split
  · exact (Sheds.refl _).probeMove_kept rfl rfl nofun
  case h_2 attempt bound =>
    split
    · exact (Sheds.refl _).probeMove_kept rfl rfl nofun
    case isFalse admitted =>
      have current : scope.isCurrent token = true := by
        by_contra stale
        simp [stale] at admitted
      dsimp only
      split
      · have failed := @handleSocketPathHealthCheckFailed_fails scope
          ⟨io.nextTimeout + 1, token, attempt⟩
          { io := { io with
              nextTimeout := io.nextTimeout + 1
              socketPathHealthCheckTimeout := some (io.nextTimeout + 1) } }
          (by simp only [isCurrentProbe, current, beq_self_eq_true, Bool.and_self])
        have sheds := (handleSocketPathHealthCheckFailed_pieces scope
          ⟨io.nextTimeout + 1, token, attempt⟩
          { io := { io with
              nextTimeout := io.nextTimeout + 1
              socketPathHealthCheckTimeout := some (io.nextTimeout + 1) } }).sheds
        exact
          { nextTimeout := sheds.nextTimeout.ge.trans' (Nat.le_succ _)
            mentioned := fun probe mentioned => .inl (sheds.mentioned probe mentioned)
            timeout := fun timeout same => by simp [failed.timeout] at same
            posts := sheds.posts.forall_mem nofun
            jobs := sheds.jobs.forall_mem nofun }
      · refine ⟨Nat.le_succ _, ?_, ?_, nofun, nofun⟩
        · rintro probe (waiting | connecting | ⟨handler, member, same⟩)
          · rcases List.mem_append.mp waiting with old | new
            · exact .inl (.inl old)
            · rw [List.mem_singleton.mp new]
              exact .inr ⟨rfl, rfl, current⟩
          · rcases List.mem_append.mp connecting with old | new
            · exact .inl (.inr (.inl old))
            · rw [List.mem_singleton.mp new]
              exact .inr ⟨rfl, rfl, current⟩
          · cases member
        · intro timeout same
          obtain rfl := Option.some.inj same
          exact .inr ⟨rfl, rfl, _, List.mem_append_right _ (List.mem_singleton.mpr rfl), rfl,
            current⟩

theorem onHealthCheckTimeout_probeMove (scope : NotificationScope) (probe : Probe)
    (errorCode : ErrorCode) (io : Io) :
    ProbeMove scope (.healthCheckTimeout probe errorCode) io
      (onHealthCheckTimeout scope probe errorCode { io }) := by
  have sheds := (InternalPiece.closeProbeSocket probe.timeout { io }).sheds
  unfold onHealthCheckTimeout
  dsimp only
  split
  case isTrue expired =>
    refine handleSocketPathHealthCheckFailed_probeMove sheds rfl rfl ?_
    rintro other same
    cases same
    rfl
  case isFalse pending =>
    refine sheds.probeMove_kept rfl rfl ?_
    rintro other same
    cases same
    exact absurd rfl pending

theorem onHealthCheckConnect_probeMove (scope : NotificationScope) (probe : Probe)
    (errorCode : ErrorCode) (io : Io) :
    ProbeMove scope (.healthCheckConnect probe errorCode) io
      (onHealthCheckConnect scope probe errorCode { io }) := by
  have cancelled := cancelTimeout_sheds probe.timeout { io }
  unfold onHealthCheckConnect
  split
  case isTrue stale =>
    refine cancelled.probeMove fun timeout same => ⟨same, fun other waiting counted => ?_, by simp⟩
    by_cases own : probe.timeout = timeout
    · refine .inr ⟨probe, errorCode, rfl, own, ?_⟩
      have same' : io.socketPathHealthCheckTimeout = some timeout := same
      simpa [isCurrentProbe, same', own] using stale
    · refine .inl (List.mem_filter.mpr ⟨waiting, ?_⟩)
      simpa [counted] using Ne.symm own
  case isFalse current =>
    have current' : isCurrentProbe scope probe { io } = true := by simpa using current
    split
    · have sheds := cancelled.trans (handleSocketPathHealthCheckFailed_pieces scope probe _).sheds
      have fails := @handleSocketPathHealthCheckFailed_fails scope probe
        (({ io } : Turn).cancelTimeout probe.timeout) current'
      exact sheds.probeMove_none fails.timeout
    · refine Sheds.probeMove_kept ?_ rfl rfl (by simp)
      refine Sheds.trans ?_ ((post_aside rfl _).trans (post_aside rfl _)).sheds
      exact ⟨rfl, fun _ => id, .refl _, .refl _⟩

theorem onHealthCheckResponse_probeMove (scope : NotificationScope) (probe : Probe)
    (io : Io) : ProbeMove scope (.healthCheckResponse probe) io
      (onHealthCheckResponse scope probe { io }) := by
  unfold onHealthCheckResponse
  split
  · exact (InternalPiece.closeSocketPathHealthCheckPeer _).sheds.probeMove_none
      (closeSocketPathHealthCheckPeer_timeout _)
  · exact (Sheds.refl _).probeMove_kept rfl rfl nofun

/-- What every handler leaves of the probe in progress. -/
theorem run_probeMove (options : CommonOptions) (scope : NotificationScope)
    (outcome : BindOutcome) (handler : Handler) (io : Io) :
    ProbeMove scope handler io (run options scope outcome handler { io }) := by
  have sheds : handler.probes = false →
      Sheds { io } (run options scope outcome handler { io }) :=
    fun unprobed => run_sheds options scope outcome unprobed { io }
  cases handler with
  | bind token =>
      obtain ⟨timeout, waits⟩ := onBind_probe scope token outcome { io }
      exact (sheds rfl).probeMove_kept timeout waits nofun
  | stop => exact (sheds rfl).probeMove_none (closeSocketPathHealthCheckPeer_timeout _)
  | accept accept result =>
      obtain ⟨timeout, waits⟩ := onAccept_probe scope accept result { io }
      exact (sheds rfl).probeMove_kept timeout waits nofun
  | peer ref handler => exact (runPeer_aside options ref handler _).probeMove nofun
  | socketPathHealthCheck token => exact onSocketPathHealthCheck_probeMove scope token outcome io
  | healthCheckTimeout probe errorCode =>
      exact onHealthCheckTimeout_probeMove scope probe errorCode io
  | healthCheckConnect probe errorCode =>
      exact onHealthCheckConnect_probeMove scope probe errorCode io
  | healthCheckResponse probe => exact onHealthCheckResponse_probeMove scope probe io
  | healthCheckFailed probe errorCode =>
      exact handleSocketPathHealthCheckFailed_probeMove (.refl _) rfl rfl nofun
  | _ => exact (run_aside options scope outcome rfl { io }).probeMove nofun

end Turn

end UnixDomainStream.Server
