import UnixDomainStream.Server.Binding

/-!
# Health-check probes one after another

A probe is known by its timer.  Its wait, its connect and the signals of its peer arrive in
any order, also after a later probe or session has started; each of them compares what it
captured with the current timer and token.  So a probe ends once, and a probe that is not
the current one changes nothing.
-/

namespace UnixDomainStream.Server

open Library

/-! ## What is known of a probe -/

/-- The probe whose event a handler is. -/
def Handler.ofProbe? : Handler → Option Probe
  | .healthCheckTimeout probe _ | .healthCheckConnect probe _ | .healthCheckResponse probe
  | .healthCheckFailed probe _ => some probe
  | _ => none

def Job.ofProbe? : Job → Option Probe
  | .signal (.healthCheck probe) _ => some probe
  | _ => none

/-- The handler of the connect of a probe. -/
def Handler.connects (timeout : Nat) : Handler → Bool
  | .healthCheckConnect probe _ => probe.timeout == timeout
  | _ => false

/-- Something about the probe is outstanding, queued or connected. -/
inductive Knows (io : Io) (handlers : List Handler) (jobs : List Job) (probe : Probe) : Prop where
  | waiting (waits : probe ∈ io.timeoutWaits)
  | connecting (connects : probe ∈ io.connects)
  | handler {handler : Handler} (queued : handler ∈ handlers)
      (own : handler.ofProbe? = some probe)
  | job {job : Job} (queued : job ∈ jobs) (own : job.ofProbe? = some probe)
  | slots {timeout : Nat} {connection : Connection (.probe timeout)}
      (alive : io.connections (.probe timeout) = some connection)
      (own : connection.slots = .healthCheck probe)

/-- The connects of a probe that are outstanding or whose handler is queued. -/
def connectings (timeout : Nat) (io : Io) (handlers : List Handler) : Nat :=
  io.connects.countP (fun probe => probe.timeout == timeout) +
    handlers.countP (Handler.connects timeout)

theorem connects_of_unprobed {handler : Handler} (other : handler.ofProbe? = none)
    (timeout : Nat) : handler.connects timeout = false := by
  cases handler <;> first | rfl | cases other

/-- What of the I/O starts the probes and connects them. -/
def Io.probing (io : Io) := (io.nextTimeout, io.timeoutWaits, io.connects)

/-- The timer and the peer of the current probe. -/
def Io.currentProbe (io : Io) := (io.socketPathHealthCheckTimeout, io.socketPathHealthCheckPeer)

namespace Turn

variable {before after turn : Turn}

/-- Nothing new is known of any probe. -/
structure Sifts (before after : Turn) : Prop where
  nextTimeout : after.io.nextTimeout = before.io.nextTimeout
  knows : ∀ probe, Knows after.io after.posts after.jobs probe →
    Knows before.io before.posts before.jobs probe
  connectings : ∀ timeout, connectings timeout after.io after.posts ≤
    connectings timeout before.io before.posts
  posts : Appends (fun _ => True) before.posts after.posts

/-- The timer and the peer of the current probe stay, or both are reset and the peer is
closed. -/
def Settles (before after : Turn) : Prop :=
  (after.io.socketPathHealthCheckTimeout = before.io.socketPathHealthCheckTimeout ∧
    after.io.socketPathHealthCheckPeer = before.io.socketPathHealthCheckPeer) ∨
  (after.io.socketPathHealthCheckTimeout = none ∧ after.io.socketPathHealthCheckPeer = none ∧
    ∀ timeout, before.io.socketPathHealthCheckPeer = some timeout →
      .peer (.probe timeout) (.close false) ∈ after.posts)

/-- A piece of a handler that starts no probe and connects none. -/
structure Narrows (before after : Turn) : Prop extends Sifts before after where
  settles : Settles before after

theorem Sifts.refl (turn : Turn) : Sifts turn turn :=
  ⟨rfl, fun _ => id, fun _ => Nat.le_refl _, .refl _⟩

theorem Sifts.trans {first second third : Turn} (left : Sifts first second)
    (right : Sifts second third) : Sifts first third :=
  ⟨right.nextTimeout.trans left.nextTimeout,
    fun probe known => left.knows probe (right.knows probe known),
    fun timeout => (right.connectings timeout).trans (left.connectings timeout),
    left.posts.trans right.posts⟩

/-- A piece that queues nothing of a probe. -/
theorem Sifts.of_io
    (posts : Appends (fun handler => handler.ofProbe? = none) before.posts after.posts)
    (jobs : Appends (fun job => job.ofProbe? = none) before.jobs after.jobs)
    (same : after.io.probing = before.io.probing)
    (connections : ∀ timeout, after.io.connections (.probe timeout) =
      before.io.connections (.probe timeout)) : Sifts before after := by
  simp only [Io.probing, Prod.mk.injEq] at same
  obtain ⟨nextTimeout, timeoutWaits, connects⟩ := same
  have counted := fun timeout =>
    posts.countP_eq fun handler other => connects_of_unprobed other timeout
  refine ⟨nextTimeout, fun probe known => ?_, fun timeout => ?_, posts.mono fun _ _ => trivial⟩
  · obtain ⟨more, posted, others⟩ := posts
    obtain ⟨later, queued, aside⟩ := jobs
    cases known with
    | waiting waits => exact .waiting (timeoutWaits ▸ waits)
    | connecting waits => exact .connecting (connects ▸ waits)
    | @handler handler listed own =>
        rw [posted] at listed
        rcases List.mem_append.mp listed with old | new
        · exact .handler old own
        · simp [others handler new] at own
    | @job job listed own =>
        rw [queued] at listed
        rcases List.mem_append.mp listed with old | new
        · exact .job old own
        · simp [aside job new] at own
    | slots alive own => exact .slots ((connections _).symm.trans alive) own
  · simp [Server.connectings, connects, counted]

namespace Narrows

theorem refl (turn : Turn) : Narrows turn turn := ⟨.refl turn, .inl ⟨rfl, rfl⟩⟩

theorem trans {first second third : Turn} (left : Narrows first second)
    (right : Narrows second third) : Narrows first third := by
  refine ⟨left.toSifts.trans right.toSifts, ?_⟩
  have later : ∀ {handler : Handler}, handler ∈ second.posts → handler ∈ third.posts := by
    obtain ⟨more, posted, _⟩ := right.posts
    exact fun listed => posted ▸ List.mem_append_left _ listed
  rcases left.settles with ⟨timeout, peer⟩ | ⟨timeout, peer, closed⟩
  · rcases right.settles with ⟨timeout', peer'⟩ | ⟨timeout', peer', closed'⟩
    · exact .inl ⟨timeout'.trans timeout, peer'.trans peer⟩
    · exact .inr ⟨timeout', peer', fun number same => closed' number (peer.trans same)⟩
  · refine .inr ⟨?_, ?_, fun number same => later (closed number same)⟩
    · rcases right.settles with ⟨timeout', _⟩ | ⟨timeout', _⟩
      · exact timeout'.trans timeout
      · exact timeout'
    · rcases right.settles with ⟨_, peer'⟩ | ⟨_, peer', _⟩
      · exact peer'.trans peer
      · exact peer'

/-- A piece that leaves the probes alone. -/
theorem of_io (posts : Appends (fun handler => handler.ofProbe? = none) before.posts after.posts)
    (jobs : Appends (fun job => job.ofProbe? = none) before.jobs after.jobs)
    (same : after.io.probing = before.io.probing)
    (current : after.io.currentProbe = before.io.currentProbe)
    (connections : ∀ timeout, after.io.connections (.probe timeout) =
      before.io.connections (.probe timeout)) : Narrows before after := by
  simp only [Io.currentProbe, Prod.mk.injEq] at current
  exact ⟨.of_io posts jobs same connections, .inl current⟩

end Narrows

/-- The handlers of a peer send signals to the slots that it has. -/
theorem runPeer_narrows (options : CommonOptions) (ref : PeerRef) (handler : PeerHandler)
    (turn : Turn) : Narrows turn (turn.runPeer options ref handler) := by
  unfold runPeer
  split
  · exact .refl turn
  case h_2 connection alive =>
    have posts : ∀ handlers : List PeerHandler,
        ∀ posted ∈ handlers.map (Handler.peer ref), posted.ofProbe? = none := by
      intro handlers posted member
      obtain ⟨other, _, rfl⟩ := List.mem_map.mp member
      rfl
    refine ⟨⟨rfl, fun probe known => ?_, fun timeout => ?_, .append (fun _ _ => trivial) _⟩,
      .inl ⟨rfl, rfl⟩⟩
    · cases known with
      | waiting waits => exact .waiting waits
      | connecting connects => exact .connecting connects
      | @handler posted listed own =>
          rcases List.mem_append.mp listed with old | new
          · exact .handler old own
          · simp [posts _ posted new] at own
      | @job job listed own =>
          rcases List.mem_append.mp listed with front | closed
          · rcases List.mem_append.mp front with old | sent
            · exact .job old own
            · obtain ⟨signal, _, rfl⟩ := List.mem_map.mp sent
              cases slots : connection.slots with
              | accepted id credentials token => simp [slots, Job.ofProbe?] at own
              | healthCheck other =>
                  simp only [slots, Job.ofProbe?, Option.some.injEq] at own
                  subst own
                  obtain rfl : PeerRef.probe other.timeout = ref := by
                    rw [← connection.named, slots]
                    rfl
                  exact .slots alive slots
          · cases ref with
            | probe => simp [PeerRef.peerClosed] at closed
            | accepted id =>
                split at closed
                · rw [List.mem_singleton.mp closed] at own
                  cases own
                · cases closed
      | @slots timeout other alive' own =>
          by_cases same : PeerRef.probe timeout = ref
          · subst same
            simp only [Function.update_self, Option.some.injEq] at alive'
            subst alive'
            exact .slots alive own
          · simp only [Function.update_of_ne same] at alive'
            exact .slots alive' own
    · have silent : ∀ handlers : List PeerHandler,
          (handlers.map (Handler.peer ref)).countP (Handler.connects timeout) = 0 := by
        intro handlers
        rw [List.countP_eq_zero]
        intro posted member
        simp [connects_of_unprobed (posts handlers posted member)]
      simp [connectings, silent]

theorem cancelTimeout_narrows (timeout : Nat) (turn : Turn) :
    Narrows turn (turn.cancelTimeout timeout) := by
  refine ⟨⟨rfl, fun probe known => ?_, fun other => ?_, .append (fun _ _ => trivial) _⟩,
    .inl ⟨rfl, rfl⟩⟩
  · cases known with
    | waiting waits => exact .waiting (List.mem_filter.mp waits).1
    | connecting connects => exact .connecting connects
    | handler listed own =>
        rcases List.mem_append.mp listed with old | new
        · exact .handler old own
        · obtain ⟨waiting, member, rfl⟩ := List.mem_map.mp new
          cases own
          exact .waiting (List.mem_filter.mp member).1
    | job listed own => exact .job listed own
    | slots alive own => exact .slots alive own
  · simp [connectings, cancelTimeout, List.countP_map, Function.comp_def, Handler.connects]

/-- The connect that is outstanding becomes a queued handler. -/
theorem closeProbeSocket_narrows (timeout : Nat) (turn : Turn) :
    Narrows turn (turn.closeProbeSocket timeout) := by
  refine ⟨⟨rfl, fun probe known => ?_, fun other => ?_, .append (fun _ _ => trivial) _⟩,
    .inl ⟨rfl, rfl⟩⟩
  · cases known with
    | waiting waits => exact .waiting waits
    | connecting connects => exact .connecting (List.mem_filter.mp connects).1
    | handler listed own =>
        rcases List.mem_append.mp listed with old | new
        · exact .handler old own
        · obtain ⟨connecting, member, rfl⟩ := List.mem_map.mp new
          cases own
          exact .connecting (List.mem_filter.mp member).1
    | job listed own => exact .job listed own
    | slots alive own => exact .slots alive own
  · have moved : ∀ probes : List Probe,
        (probes.filter fun probe => probe.timeout != timeout).countP
            (fun probe => probe.timeout == other) +
          ((probes.filter fun probe => probe.timeout == timeout).map fun probe =>
            Handler.healthCheckConnect probe .operationAborted).countP (Handler.connects other) =
        probes.countP fun probe => probe.timeout == other := by
      intro probes
      induction probes with
      | nil => rfl
      | cons probe rest ih =>
          rw [List.filter_cons, List.filter_cons, List.countP_cons]
          by_cases own : probe.timeout = timeout
          · simp [own, List.countP_cons, Handler.connects] at ih ⊢
            omega
          · simp [own, List.countP_cons] at ih ⊢
            omega
    have counted := moved turn.io.connects
    simp only [connectings, closeProbeSocket, List.countP_append]
    omega

/-- Both halves are done together. -/
theorem closeSocketPathHealthCheckPeer_narrows (turn : Turn) :
    Narrows turn turn.closeSocketPathHealthCheckPeer := by
  have cancelled : Sifts turn turn.resetTimeout := by
    unfold resetTimeout
    split
    · exact .refl turn
    · exact (cancelTimeout_narrows _ turn).toSifts.trans
        (.of_io (.refl _) (.refl _) rfl fun _ => rfl)
  have peer : turn.resetTimeout.io.socketPathHealthCheckPeer =
      turn.io.socketPathHealthCheckPeer := by
    unfold resetTimeout
    split <;> rfl
  have timeout := closeSocketPathHealthCheckPeer_timeout turn
  unfold closeSocketPathHealthCheckPeer at timeout ⊢
  generalize turn.resetTimeout = middle at cancelled peer timeout ⊢
  unfold resetProbePeer at timeout ⊢
  split
  case h_1 absent =>
    refine ⟨cancelled, .inr ⟨?_, absent, fun number same => ?_⟩⟩
    · simpa only [absent] using timeout
    · simp [peer ▸ absent] at same
  case h_2 number present =>
    have posted : Sifts middle (middle.post (.peer (.probe number) (.close false))) := by
      refine .of_io (.single ?_ _) (.refl _) rfl fun _ => rfl
      rfl
    refine ⟨(cancelled.trans posted).trans (.of_io (.refl _) (.refl _) rfl fun _ => rfl),
      .inr ⟨?_, rfl, fun other same => ?_⟩⟩
    · simpa only [present] using timeout
    · rw [← peer, present] at same
      cases same
      exact List.mem_append_right _ (List.mem_singleton.mpr rfl)

theorem InternalPiece.narrows (piece : InternalPiece before after) : Narrows before after := by
  cases piece with
  | closeAcceptor =>
      refine .of_io (.map ?_ _) (.refl _) rfl rfl fun _ => rfl
      exact fun _ _ => rfl
  | cancelTimeout timeout => exact cancelTimeout_narrows timeout _
  | closeProbeSocket timeout => exact closeProbeSocket_narrows timeout _
  | closeSocketPathHealthCheckPeer => exact closeSocketPathHealthCheckPeer_narrows _
  | notify internal =>
      refine .of_io (.refl _) (.single ?_ _) rfl rfl fun _ => rfl
      rfl
  | bind attempt acceptor => exact .of_io (.refl _) (.refl _) rfl rfl fun _ => rfl
  | listen accept => exact .of_io (.refl _) (.refl _) rfl rfl fun _ => rfl

theorem InternalPieces.narrows (pieces : InternalPieces before after) : Narrows before after :=
  pieces.effect .refl .trans InternalPiece.narrows

theorem PeerPiece.narrows {options : CommonOptions} {scope : NotificationScope}
    {handler : Handler} {start : Turn}
    (piece : PeerPiece options scope handler start before after) : Narrows before after := by
  cases piece with
  | complete completes earned =>
      refine .of_io (.map ?_ _) (.map ?_ _) rfl rfl fun _ => rfl
      · exact fun _ _ => rfl
      · exact fun _ _ => rfl
  | push id frame => exact .of_io (.single (by rfl) _) (.refl _) rfl rfl fun _ => rfl
  | release own listed completed =>
      exact .of_io (.single (by rfl) _) (.refl _) rfl rfl fun _ => rfl
  | erase own completed => exact .of_io (.refl _) (.refl _) rfl rfl fun _ => rfl
  | dismiss own completed =>
      refine .of_io (.map ?_ _) (.refl _) rfl rfl fun _ => rfl
      exact fun _ _ => rfl
  | send own listed => exact .of_io (.single (by rfl) _) (.refl _) rfl rfl fun _ => rfl
  | refuse own => exact .of_io (.refl _) (.single (by rfl) _) rfl rfl fun _ => rfl
  | speak own => exact runPeer_narrows options _ _ _
  | create own current =>
      refine .of_io (.single (by rfl) _) (.refl _) rfl rfl fun timeout => ?_
      simp [emit, Turn.post]

/-- Only the handlers about probes begin anything for one. -/
theorem run_narrows (options : CommonOptions) (scope : NotificationScope)
    (outcome : BindOutcome) {handler : Handler} (unprobed : handler.probes = false)
    (turn : Turn) : Narrows turn (turn.run options scope outcome handler) := by
  refine (run_pieces options scope outcome handler turn).effect .refl .trans ?_
  intro before after piece
  cases piece with
  | internal piece => exact piece.narrows
  | peer piece => exact piece.narrows
  | probe own => exact absurd (own.symm.trans unprobed) (by decide)

/-! ## The start and the connection of a probe -/

/-- What a handler does to the probes. -/
inductive ProbeStep (scope : NotificationScope) (handler : Handler) (io : Io)
    (after : Turn) : Prop where
  | narrows (narrows : Narrows { io } after)
  | started {token attempt : Nat} (own : handler = .socketPathHealthCheck token)
      (vacant : io.socketPathHealthCheckTimeout = none)
      (same : after = { io := { io with
        nextTimeout := io.nextTimeout + 1
        socketPathHealthCheckTimeout := some (io.nextTimeout + 1)
        timeoutWaits := io.timeoutWaits ++ [⟨io.nextTimeout + 1, token, attempt⟩]
        connects := io.connects ++ [⟨io.nextTimeout + 1, token, attempt⟩] } })
  | failed {token : Nat} (own : handler = .socketPathHealthCheck token)
      (vacant : io.socketPathHealthCheckTimeout = none)
      (narrows : Narrows { io := { io with
        nextTimeout := io.nextTimeout + 1
        socketPathHealthCheckTimeout := some (io.nextTimeout + 1) } } after)
      (ended : after.io.socketPathHealthCheckTimeout = none)
  | connected {probe : Probe} {peer : Peer} (own : handler = .healthCheckConnect probe .success)
      (current : isCurrentProbe scope probe { io } = true)
      (same : after.io = { io with
        socketPathHealthCheckPeer := some probe.timeout
        connections := Function.update io.connections (.probe probe.timeout)
          (some { peer, slots := .healthCheck probe, named := rfl }) })
      (posts : ∀ handler ∈ after.posts, handler.ofProbe? = none) (jobs : after.jobs = [])

variable {scope : NotificationScope} {io : Io}

theorem onSocketPathHealthCheck_probeStep (scope : NotificationScope) (token : Nat)
    (outcome : BindOutcome) (io : Io) :
    ProbeStep scope (.socketPathHealthCheck token) io
      (onSocketPathHealthCheck scope token outcome { io }) := by
  unfold onSocketPathHealthCheck
  split
  · exact .narrows (.refl _)
  · split
    · exact .narrows (.refl _)
    case isFalse admitted =>
      have current : scope.isCurrent token = true := by
        by_contra stale
        simp [stale] at admitted
      have vacant : io.socketPathHealthCheckTimeout = none := by
        simpa [current] using admitted
      dsimp only
      split
      · refine .failed rfl vacant
          (handleSocketPathHealthCheckFailed_pieces scope _ _).narrows ?_
        refine (handleSocketPathHealthCheckFailed_fails ?_).timeout
        simp only [isCurrentProbe, current, beq_self_eq_true, Bool.and_self]
      · exact .started rfl vacant rfl

theorem onHealthCheckConnect_probeStep (scope : NotificationScope) (probe : Probe)
    (errorCode : ErrorCode) (io : Io) :
    ProbeStep scope (.healthCheckConnect probe errorCode) io
      (onHealthCheckConnect scope probe errorCode { io }) := by
  unfold onHealthCheckConnect
  split
  · exact .narrows (cancelTimeout_narrows _ _)
  case isFalse current =>
    split
    · exact .narrows ((cancelTimeout_narrows _ _).trans
        (handleSocketPathHealthCheckFailed_pieces scope probe _).narrows)
    case isFalse connected =>
      rw [ne_eq, Decidable.not_not] at connected
      subst connected
      refine .connected rfl (by simpa using current) rfl ?_ rfl
      intro handler member
      simp only [Turn.post, List.nil_append, List.mem_append, List.mem_singleton] at member
      rcases member with rfl | rfl <;> rfl

/-- What every handler does to the probes. -/
theorem run_probeStep (options : CommonOptions) (scope : NotificationScope)
    (outcome : BindOutcome) (handler : Handler) (io : Io) :
    ProbeStep scope handler io (run options scope outcome handler { io }) := by
  cases handler with
  | peer ref handler => exact .narrows (runPeer_narrows options ref handler _)
  | socketPathHealthCheck token => exact onSocketPathHealthCheck_probeStep scope token outcome io
  | healthCheckConnect probe errorCode =>
      exact onHealthCheckConnect_probeStep scope probe errorCode io
  | _ => exact .narrows (run_narrows options scope outcome rfl { io })

end Turn

/-! ## The invariant -/

section

variable {io : Io} {handlers handlers' : List Handler} {jobs jobs' : List Job} {probe : Probe}

theorem Knows.mono (known : Knows io handlers jobs probe)
    (listed : ∀ handler ∈ handlers, handler ∈ handlers') (queued : ∀ job ∈ jobs, job ∈ jobs') :
    Knows io handlers' jobs' probe := by
  cases known with
  | waiting waits => exact .waiting waits
  | connecting connects => exact .connecting connects
  | handler member own => exact .handler (listed _ member) own
  | job member own => exact .job (queued _ member) own
  | slots alive own => exact .slots alive own

/-- What is known from two queues each is known from one of them. -/
theorem Knows.append (known : Knows io (handlers ++ handlers') (jobs ++ jobs') probe) :
    (∃ handler ∈ handlers, handler.ofProbe? = some probe) ∨
      (∃ job ∈ jobs, job.ofProbe? = some probe) ∨ Knows io handlers' jobs' probe := by
  cases known with
  | waiting waits => exact .inr (.inr (.waiting waits))
  | connecting connects => exact .inr (.inr (.connecting connects))
  | @handler handler member own =>
      rcases List.mem_append.mp member with old | new
      · exact .inl ⟨handler, old, own⟩
      · exact .inr (.inr (.handler new own))
  | @job job member own =>
      rcases List.mem_append.mp member with old | new
      · exact .inr (.inl ⟨job, old, own⟩)
      · exact .inr (.inr (.job new own))
  | slots alive own => exact .inr (.inr (.slots alive own))

theorem connectings_eq_zero {timeout : Nat}
    (unknown : ∀ probe, Knows io handlers jobs probe → probe.timeout ≠ timeout) :
    connectings timeout io handlers = 0 := by
  have outstanding : io.connects.countP (fun probe => probe.timeout == timeout) = 0 := by
    rw [List.countP_eq_zero]
    exact fun probe member same => unknown probe (.connecting member) (by simpa using same)
  have queued : handlers.countP (Handler.connects timeout) = 0 := by
    rw [List.countP_eq_zero]
    intro handler member same
    cases handler with
    | healthCheckConnect probe errorCode =>
        exact unknown probe (.handler member rfl) (by simpa [Handler.connects] using same)
    | _ => cases same
  rw [connectings, outstanding, queued]

theorem connectings_append (timeout : Nat) (io : Io) (handlers handlers' : List Handler) :
    connectings timeout io (handlers ++ handlers') =
      handlers.countP (Handler.connects timeout) + connectings timeout io handlers' := by
  simp only [connectings, List.countP_append]
  omega

theorem connectings_cons (timeout : Nat) (io : Io) (handler : Handler) (rest : List Handler) :
    connectings timeout io (handler :: rest) =
      connectings timeout io rest + (handler.connects timeout).toNat := by
  have bit : (if handler.connects timeout = true then 1 else 0) =
      (handler.connects timeout).toNat := by
    cases handler.connects timeout <;> rfl
  rw [connectings, connectings, List.countP_cons, bit, Nat.add_assoc]

end

def State.Knows (state : State) (probe : Probe) : Prop :=
  Server.Knows state.io state.handlers state.jobs probe

/-- What holds of the probes in every state. -/
structure State.Probing (state : State) : Prop where
  distinct : ∀ first second, state.Knows first → state.Knows second →
    first.timeout = second.timeout → first = second
  numbered : ∀ probe, state.Knows probe → probe.timeout ≤ state.io.nextTimeout
  current : ∀ timeout, state.io.socketPathHealthCheckTimeout = some timeout →
    timeout ≤ state.io.nextTimeout
  single : ∀ timeout, connectings timeout state.io state.handlers ≤ 1
  peer : ∀ timeout, state.io.socketPathHealthCheckPeer = some timeout →
    state.io.socketPathHealthCheckTimeout = some timeout ∧
      connectings timeout state.io state.handlers = 0

theorem initial_probing : initial.Probing where
  distinct first second known := by
    rcases known with waits | connects | ⟨queued, _⟩ | ⟨queued, _⟩ | ⟨alive, _⟩
    · cases waits
    · cases connects
    · cases queued
    · cases queued
    · cases alive
  numbered probe known := by
    rcases known with waits | connects | ⟨queued, _⟩ | ⟨queued, _⟩ | ⟨alive, _⟩
    · cases waits
    · cases connects
    · cases queued
    · cases queued
    · cases alive
  current := nofun
  single timeout := Nat.zero_le _
  peer := nofun

section

variable {state state' : State} {handler : Handler} {rest : List Handler} {turn : Turn}

/-- A step after which nothing new is known and no connect has been added. -/
theorem State.Probing.of_knows (probing : state.Probing)
    (knows : ∀ probe, state'.Knows probe → state.Knows probe)
    (nextTimeout : state'.io.nextTimeout = state.io.nextTimeout)
    (counted : ∀ timeout, connectings timeout state'.io state'.handlers ≤
      connectings timeout state.io state.handlers)
    (pointers : (state'.io.socketPathHealthCheckTimeout = state.io.socketPathHealthCheckTimeout ∧
      state'.io.socketPathHealthCheckPeer = state.io.socketPathHealthCheckPeer) ∨
      (state'.io.socketPathHealthCheckTimeout = none ∧
        state'.io.socketPathHealthCheckPeer = none)) : state'.Probing where
  distinct first second left right := probing.distinct first second (knows first left)
    (knows second right)
  numbered probe known := nextTimeout ▸ probing.numbered probe (knows probe known)
  current timeout same := by
    rw [nextTimeout]
    rcases pointers with ⟨kept, _⟩ | ⟨ended, _⟩
    · exact probing.current timeout (kept ▸ same)
    · simp [ended] at same
  single timeout := (counted timeout).trans (probing.single timeout)
  peer timeout same := by
    rcases pointers with ⟨kept, peer⟩ | ⟨_, ended⟩
    · obtain ⟨own, none⟩ := probing.peer timeout (peer ▸ same)
      exact ⟨kept.trans own, Nat.le_zero.mp (none ▸ counted timeout)⟩
    · simp [ended] at same

/-- A handler that narrows. -/
theorem State.Probing.narrowed (probing : state.Probing)
    (queued : state.handlers = handler :: rest)
    (narrows : Turn.Narrows { io := state.io } turn) : (state.handled rest turn).Probing := by
  refine probing.of_knows (fun probe known => ?_) narrows.nextTimeout (fun timeout => ?_)
    (narrows.settles.imp_right fun ended => ⟨ended.1, ended.2.1⟩)
  · rcases Knows.append known with ⟨other, listed, own⟩ | ⟨job, listed, own⟩ | known
    · exact .handler (queued ▸ List.mem_cons_of_mem _ listed) own
    · exact .job listed own
    · exact (narrows.knows probe known).mono nofun nofun
  · have fewer : connectings timeout turn.io turn.posts ≤ connectings timeout state.io [] :=
      narrows.connectings timeout
    simp only [State.handled, connectings_append]
    rw [queued, connectings_cons]
    have split := connectings_append timeout state.io rest []
    rw [List.append_nil] at split
    omega

theorem State.Probing.absent (probing : state.Probing)
    (vacant : state.io.socketPathHealthCheckTimeout = none) :
    state.io.socketPathHealthCheckPeer = none := by
  cases present : state.io.socketPathHealthCheckPeer with
  | none => rfl
  | some timeout =>
      have own := (probing.peer timeout present).1
      rw [vacant] at own
      cases own

/-- The connect of the current probe finds no peer of a probe. -/
theorem State.Probing.vacant_of_connect (probing : state.Probing)
    (queued : state.handlers = handler :: rest) {probe : Probe} {errorCode : ErrorCode}
    (own : handler = .healthCheckConnect probe errorCode)
    (current : Turn.isCurrentProbe state.scope probe { io := state.io } = true) :
    state.io.socketPathHealthCheckPeer = none := by
  cases present : state.io.socketPathHealthCheckPeer with
  | none => rfl
  | some timeout =>
      obtain ⟨occupied, none⟩ := probing.peer timeout present
      have same : state.io.socketPathHealthCheckTimeout = some probe.timeout := by
        simpa using (Bool.and_eq_true_iff.mp current).2
      have twin : probe.timeout = timeout := Option.some.inj (same.symm.trans occupied)
      have counted := connectings_cons timeout state.io handler rest
      rw [← queued, none, own] at counted
      simp [Handler.connects, twin] at counted

/-- A fresh probe fails at once. -/
theorem State.Probing.failed (probing : state.Probing)
    (queued : state.handlers = handler :: rest)
    (vacant : state.io.socketPathHealthCheckTimeout = none)
    (narrows : Turn.Narrows { io := { state.io with
      nextTimeout := state.io.nextTimeout + 1
      socketPathHealthCheckTimeout := some (state.io.nextTimeout + 1) } } turn) :
    (state.handled rest turn).Probing := by
  let fresh : State :=
    { state with io := { state.io with
      nextTimeout := state.io.nextTimeout + 1
      socketPathHealthCheckTimeout := some (state.io.nextTimeout + 1) } }
  have knows : ∀ probe, fresh.Knows probe → state.Knows probe := by
    intro probe known
    cases known with
    | waiting waits => exact .waiting waits
    | connecting connects => exact .connecting connects
    | handler listed own => exact .handler listed own
    | job listed own => exact .job listed own
    | slots alive own => exact .slots alive own
  have probing' : fresh.Probing :=
    { distinct := fun first second left right =>
        probing.distinct first second (knows first left) (knows second right)
      numbered := fun probe known =>
        Nat.le_succ_of_le (probing.numbered probe (knows probe known))
      current := fun timeout same => (Option.some.inj same).ge
      single := probing.single
      peer := fun timeout same => by
        have absent : fresh.io.socketPathHealthCheckPeer = none := probing.absent vacant
        simp [absent] at same }
  exact probing'.narrowed queued narrows

/-- A fresh probe is started. -/
theorem State.Probing.started (probing : state.Probing)
    (queued : state.handlers = handler :: rest) {token attempt : Nat}
    (vacant : state.io.socketPathHealthCheckTimeout = none)
    (same : turn = { io := { state.io with
      nextTimeout := state.io.nextTimeout + 1
      socketPathHealthCheckTimeout := some (state.io.nextTimeout + 1)
      timeoutWaits := state.io.timeoutWaits ++ [⟨state.io.nextTimeout + 1, token, attempt⟩]
      connects := state.io.connects ++ [⟨state.io.nextTimeout + 1, token, attempt⟩] } }) :
    (state.handled rest turn).Probing := by
  have knows : ∀ probe, (state.handled rest turn).Knows probe →
      state.Knows probe ∨ probe = ⟨state.io.nextTimeout + 1, token, attempt⟩ := by
    intro probe known
    rcases Knows.append known with ⟨other, listed, own⟩ | ⟨job, listed, own⟩ | known
    · exact .inl (.handler (queued ▸ List.mem_cons_of_mem _ listed) own)
    · exact .inl (.job listed own)
    · have known : Server.Knows turn.io turn.posts turn.jobs probe := known
      rw [same] at known
      cases known with
      | waiting waits =>
          rcases List.mem_append.mp waits with old | new
          · exact .inl (.waiting old)
          · exact .inr (List.mem_singleton.mp new)
      | connecting connects =>
          rcases List.mem_append.mp connects with old | new
          · exact .inl (.connecting old)
          · exact .inr (List.mem_singleton.mp new)
      | handler listed own => cases listed
      | job listed own => cases listed
      | slots alive own => exact .inl (.slots alive own)
  have nextTimeout : (state.handled rest turn).io.nextTimeout = state.io.nextTimeout + 1 := by
    rw [State.handled, same]
  refine ⟨fun first second left right twin => ?_, fun probe known => ?_, fun timeout found => ?_,
    fun timeout => ?_, fun timeout found => ?_⟩
  · rcases knows first left with left | rfl
    · rcases knows second right with right | rfl
      · exact probing.distinct first second left right twin
      · have bound := probing.numbered first left
        simp only at twin
        omega
    · rcases knows second right with right | rfl
      · have bound := probing.numbered second right
        simp only at twin
        omega
      · rfl
  · rw [nextTimeout]
    rcases knows probe known with old | rfl
    · exact Nat.le_succ_of_le (probing.numbered probe old)
    · exact Nat.le_refl _
  · rw [nextTimeout]
    simp only [State.handled, same, Option.some.injEq] at found
    exact found.ge
  · have old := probing.single timeout
    have unborn : timeout = state.io.nextTimeout + 1 →
        connectings timeout state.io state.handlers = 0 := by
      rintro rfl
      refine @connectings_eq_zero state.io state.handlers state.jobs _ fun probe known same => ?_
      have bound := probing.numbered probe known
      omega
    rw [queued, connectings_cons] at old unborn
    simp only [State.handled, same, List.append_nil]
    unfold connectings at old unborn ⊢
    simp only [List.countP_append, List.countP_singleton]
    split
    case isTrue own =>
      have none := unborn (beq_iff_eq.mp own).symm
      omega
    case isFalse => omega
  · have absent : (state.handled rest turn).io.socketPathHealthCheckPeer = none := by
      rw [State.handled, same]
      exact probing.absent vacant
    simp [absent] at found

/-- The current probe is connected. -/
theorem State.Probing.connected (probing : state.Probing) {probe : Probe}
    (queued : state.handlers = .healthCheckConnect probe .success :: rest) {peer : Peer}
    (current : Turn.isCurrentProbe state.scope probe { io := state.io } = true)
    (same : turn.io = { state.io with
      socketPathHealthCheckPeer := some probe.timeout
      connections := Function.update state.io.connections (.probe probe.timeout)
        (some { peer, slots := .healthCheck probe, named := rfl }) })
    (posts : ∀ handler ∈ turn.posts, handler.ofProbe? = none) (jobs : turn.jobs = []) :
    (state.handled rest turn).Probing := by
  have timeout : state.io.socketPathHealthCheckTimeout = some probe.timeout := by
    simpa using (Bool.and_eq_true_iff.mp current).2
  have own : state.Knows probe := .handler (queued ▸ List.mem_cons_self) rfl
  have knows : ∀ other, State.Knows (state.handled rest turn) other → state.Knows other := by
    intro other known
    rcases Knows.append known with ⟨handler, listed, mine⟩ | ⟨job, listed, mine⟩ | known
    · exact .handler (queued ▸ List.mem_cons_of_mem _ listed) mine
    · exact .job listed mine
    · have known : Server.Knows turn.io turn.posts turn.jobs other := known
      rw [same, jobs] at known
      cases known with
      | waiting waits => exact .waiting waits
      | connecting connects => exact .connecting connects
      | @handler handler listed mine => simp [posts handler listed] at mine
      | job listed mine => cases listed
      | @slots number connection alive mine =>
          by_cases twin : number = probe.timeout
          · subst twin
            simp only [Function.update_self, Option.some.injEq] at alive
            subst alive
            cases mine
            exact own
          · have other : PeerRef.probe number ≠ .probe probe.timeout := fun same =>
              twin (PeerRef.probe.inj same)
            simp only [Function.update_of_ne other] at alive
            exact .slots alive mine
  have counted : ∀ number, connectings number (state.handled rest turn).io
      (state.handled rest turn).handlers +
        (Handler.connects number (.healthCheckConnect probe .success)).toNat =
      connectings number state.io state.handlers := by
    intro number
    have posted : turn.posts.countP (Handler.connects number) = 0 := by
      rw [List.countP_eq_zero]
      exact fun handler listed => by simp [connects_of_unprobed (posts handler listed)]
    rw [queued, connectings_cons]
    simp only [State.handled, connectings, same, List.countP_append, posted, Nat.add_zero]
  refine ⟨fun first second left right => probing.distinct first second (knows first left)
    (knows second right), fun other known => ?_, fun number found => ?_, fun number => ?_,
    fun number found => ?_⟩
  · have bound := probing.numbered other (knows other known)
    simpa only [State.handled, same] using bound
  · simp only [State.handled, same] at found ⊢
    exact probing.current number found
  · have old := probing.single number
    have count := counted number
    omega
  · simp only [State.handled, same, Option.some.injEq] at found ⊢
    subst found
    refine ⟨timeout, ?_⟩
    have old := probing.single probe.timeout
    have count := counted probe.timeout
    simp only [Handler.connects, beq_self_eq_true, Bool.toNat_true, State.handled, same] at count
    omega

theorem State.Probing.handled (probing : state.Probing)
    (queued : state.handlers = handler :: rest)
    (step : Turn.ProbeStep state.scope handler state.io turn) :
    (state.handled rest turn).Probing := by
  cases step with
  | narrows narrows => exact probing.narrowed queued narrows
  | started own vacant same => exact probing.started queued vacant same
  | failed own vacant narrows ended => exact probing.failed queued vacant narrows
  | connected own current same posts jobs =>
      exact probing.connected (own ▸ queued) current same posts jobs

/-- What a job leaves behind about a probe is its own. -/
structure ProbeEffect (job : Job) (effect : Effect) : Prop where
  posts : ∀ handler ∈ effect.posts, handler.ofProbe? = none ∨ handler.ofProbe? = job.ofProbe?
  unconnected : ∀ handler ∈ effect.posts, ∀ timeout, handler.connects timeout = false
  next : ∀ later ∈ effect.next, later.ofProbe? = none
  jobs : ∀ later ∈ effect.jobs, later.ofProbe? = none

theorem SessionEffect.probeEffect {effect : Effect} (session : SessionEffect effect) (job : Job) :
    ProbeEffect job effect := by
  have jobs : ∀ {later : Job}, later.isSession = true → later.ofProbe? = none := by
    intro later own
    cases later <;> first | rfl | cases own
  have posts : ∀ handler ∈ effect.posts, handler.ofProbe? = none := by
    intro handler posted
    have own := session.posts handler posted
    cases handler <;> first | rfl | cases own
  exact
    { posts := fun handler posted => .inl (posts handler posted)
      unconnected := fun handler posted => connects_of_unprobed (posts handler posted)
      next := fun later listed => jobs (session.next later listed)
      jobs := fun later listed => jobs (session.jobs later listed) }

theorem perform_probeEffect (dispatcher : Dispatcher) (job : Job) (verdict : Bool) :
    ProbeEffect job (perform dispatcher job verdict).2 := by
  cases job with
  | signal slots sent =>
      cases slots with
      | accepted =>
          cases sent <;> constructor <;> simp [perform, slot, acceptedSlot, Handler.ofProbe?,
            Handler.connects, Job.ofProbe?]
      | healthCheck probe =>
          simp only [perform, slot, healthCheckSlot]
          split
          · cases sent <;> constructor <;> simp [Handler.ofProbe?, Handler.connects, Job.ofProbe?]
          · constructor <;> simp
  | notify token notice =>
      simp only [perform]
      split
      · cases notice with
        | ready =>
            cases verdict <;> constructor <;> simp [notify, Handler.ofProbe?, Handler.connects]
        | _ => constructor <;> simp [notify, Job.ofProbe?]
      · constructor <;> simp
  | enqueuePeerErrorOccurred => constructor <;> simp [perform, Job.ofProbe?]
  | enqueuePeerClosed => constructor <;> simp [perform, Job.ofProbe?]
  | received => constructor <;> simp [perform, ifExposed]
  | requestReceived => constructor <;> simp [perform, ifExposed]
  | peerErrorOccurred => constructor <;> simp [perform, ifExposed]
  | peerClosed => constructor <;> simp [perform]
  | requestCallback => constructor <;> simp [perform]
  | _ => exact (perform_session rfl dispatcher verdict).probeEffect _

theorem State.Probing.performed (probing : state.Probing) {job : Job} {later : List Job}
    (queued : state.jobs = job :: later) {dispatcher : Dispatcher} {delayed : List Job}
    (verdict : Bool) : State.Probing
      { state with
        dispatcher
        handlers := state.handlers ++ (perform state.dispatcher job verdict).2.posts
        jobs := (perform state.dispatcher job verdict).2.next ++ later ++
          (perform state.dispatcher job verdict).2.jobs
        delayed } := by
  obtain ⟨posts, unconnected, next, jobs⟩ := perform_probeEffect state.dispatcher job verdict
  refine probing.of_knows (fun probe known => ?_) rfl (fun timeout => ?_) (.inl ⟨rfl, rfl⟩)
  · cases known with
    | waiting waits => exact .waiting waits
    | connecting connects => exact .connecting connects
    | @handler handler listed own =>
        rcases List.mem_append.mp listed with old | new
        · exact .handler old own
        · rcases posts handler new with none | same
          · simp [none] at own
          · exact .job (queued ▸ List.mem_cons_self) (same.symm.trans own)
    | @job other listed own =>
        rcases List.mem_append.mp listed with front | new
        · rcases List.mem_append.mp front with follows | old
          · simp [next other follows] at own
          · exact .job (queued ▸ List.mem_cons_of_mem _ old) own
        · simp [jobs other new] at own
    | slots alive own => exact .slots alive own
  · have posted : (perform state.dispatcher job verdict).2.posts.countP
        (Handler.connects timeout) = 0 := by
      rw [List.countP_eq_zero]
      exact fun handler listed => by simp [unconnected handler listed timeout]
    simp [connectings, posted]

/-- A handler about no probe is queued from outside. -/
theorem State.Probing.posted (probing : state.Probing) {other : Handler} {io : Io}
    (unprobed : other.ofProbe? = none)
    (connections : ∀ timeout connection, io.connections (.probe timeout) = some connection →
      ∃ before, state.io.connections (.probe timeout) = some before ∧
        before.slots = connection.slots)
    (same : io.probing = state.io.probing) (current : io.currentProbe = state.io.currentProbe) :
    (post other { state with io }).Probing := by
  simp only [Io.probing, Io.currentProbe, Prod.mk.injEq] at same current
  obtain ⟨nextTimeout, timeoutWaits, connects⟩ := same
  refine probing.of_knows (fun probe known => ?_) nextTimeout (fun number => ?_) (.inl current)
  · cases known with
    | waiting waits => exact .waiting (timeoutWaits ▸ waits)
    | connecting open' => exact .connecting (connects ▸ open')
    | handler listed own =>
        rcases List.mem_append.mp listed with old | new
        · exact .handler old own
        · rw [List.mem_singleton.mp new, unprobed] at own
          cases own
    | job listed own => exact .job listed own
    | slots alive own =>
        obtain ⟨before, alive, same⟩ := connections _ _ alive
        exact .slots alive (same.trans own)
  · have silent := connects_of_unprobed unprobed number
    simp [connectings, post, connects, silent]

theorem State.Probing.accepts (probing : state.Probing) {input : Input} {events : List Event}
    (accepts : Accepts state input events state') : state'.Probing := by
  have queued : ∀ {job : Job}, job.ofProbe? = none → (enqueue job state).Probing := by
    intro job unprobed
    refine probing.of_knows (fun probe known => ?_) rfl (fun _ => Nat.le_refl _) (.inl ⟨rfl, rfl⟩)
    cases known with
    | waiting waits => exact .waiting waits
    | connecting connects => exact .connecting connects
    | handler listed own => exact .handler listed own
    | job listed own =>
        rcases List.mem_append.mp listed with old | new
        · exact .job old own
        · rw [List.mem_singleton.mp new, unprobed] at own
          cases own
    | slots alive own => exact .slots alive own
  have same : ∀ timeout connection, state.io.connections (.probe timeout) = some connection →
      ∃ before, state.io.connections (.probe timeout) = some before ∧
        before.slots = connection.slots := fun _ connection alive => ⟨connection, alive, rfl⟩
  cases accepts with
  | asyncStart => exact queued rfl
  | asyncStop => exact queued rfl
  | asyncSend id data => exact probing.posted rfl same rfl rfl
  | asyncRespond id requestId data => exact probing.posted rfl same rfl rfl
  | asyncRequest call id data => exact probing.posted rfl same rfl rfl
  | asyncClosePeer id => exact probing.posted rfl same rfl rfl
  | acceptCompletes result outstanding => exact probing.posted rfl same rfl rfl
  | @peerCompletes ref connection completion peer handler alive completes =>
      refine probing.posted rfl (fun timeout after alive' => ?_) rfl rfl
      by_cases own : PeerRef.probe timeout = ref
      · subst own
        simp only [Function.update_self, Option.some.injEq] at alive'
        exact ⟨connection, alive, by rw [← alive']⟩
      · simp only [Function.update_of_ne own] at alive'
        exact ⟨after, alive', rfl⟩
  | requestExpires expires => exact probing.posted rfl same rfl rfl
  | @healthCheckExpires probe outstanding =>
      refine probing.of_knows (fun other known => ?_) rfl (fun timeout => ?_) (.inl ⟨rfl, rfl⟩)
      · cases known with
        | waiting waits => exact .waiting (List.mem_filter.mp waits).1
        | connecting connects => exact .connecting connects
        | handler listed own =>
            rcases List.mem_append.mp listed with old | new
            · exact .handler old own
            · rw [List.mem_singleton.mp new] at own
              cases own
              exact .waiting outstanding
        | job listed own => exact .job listed own
        | slots alive own => exact .slots alive own
      · simp [connectings, post, Handler.connects]
  | @healthCheckConnects probe errorCode outstanding =>
      refine probing.of_knows (fun other known => ?_) rfl (fun timeout => ?_) (.inl ⟨rfl, rfl⟩)
      · cases known with
        | waiting waits => exact .waiting waits
        | connecting connects => exact .connecting (List.mem_filter.mp connects).1
        | handler listed own =>
            rcases List.mem_append.mp listed with old | new
            · exact .handler old own
            · rw [List.mem_singleton.mp new] at own
              cases own
              exact .connecting outstanding
        | job listed own => exact .job listed own
        | slots alive own => exact .slots alive own
      · -- Every connect of the probe is taken away, and one handler is queued.
        have gone : ∀ own : probe.timeout = timeout,
            (state.io.connects.filter fun other => other.timeout != probe.timeout).countP
              (fun other => other.timeout == timeout) = 0 := by
          rintro rfl
          rw [List.countP_eq_zero]
          intro other listed
          simpa using (List.mem_filter.mp listed).2
        have fewer : (state.io.connects.filter fun other =>
            other.timeout != probe.timeout).countP (fun other => other.timeout == timeout) ≤
              state.io.connects.countP fun other => other.timeout == timeout :=
          List.filter_sublist.countP_le
        have some : probe.timeout = timeout →
            0 < state.io.connects.countP fun other => other.timeout == timeout := by
          intro own
          exact List.countP_pos_iff.mpr ⟨probe, outstanding, by simp [own]⟩
        simp only [connectings, post, List.countP_append, List.countP_singleton, Handler.connects,
          beq_iff_eq]
        split
        case isTrue own =>
          have none := gone own
          have one := some own
          omega
        case isFalse => omega
  | @destroy ref connection alive released =>
      refine probing.of_knows (fun probe known => ?_) rfl (fun _ => Nat.le_refl _) (.inl ⟨rfl, rfl⟩)
      cases known with
      | waiting waits => exact .waiting waits
      | connecting connects => exact .connecting connects
      | handler listed own => exact .handler listed own
      | job listed own => exact .job (List.mem_filter.mp listed).1 own
      | @slots timeout other alive' own =>
          by_cases same : PeerRef.probe timeout = ref
          · subst same
            simp at alive'
          · simp only [Function.update_of_ne same] at alive'
            exact .slots alive' own

theorem step_probing {options : CommonOptions} {label : Label} {events : List Event}
    (probing : state.Probing) (session : state.DelaysSession)
    (step : (system options).step? state label = some (state', events)) : state'.Probing := by
  cases Program.step_of_eq_some step with
  | @handler handler rest queued outcome =>
      exact probing.handled queued (Turn.run_probeStep options state.scope outcome handler state.io)
  | job queued verdict => exact probing.performed queued verdict
  | @delayed index job idle due =>
      have own := session job (List.mem_of_getElem? due)
      refine probing.of_knows (fun probe known => ?_) rfl (fun _ => Nat.le_refl _) (.inl ⟨rfl, rfl⟩)
      cases known with
      | waiting waits => exact .waiting waits
      | connecting connects => exact .connecting connects
      | handler listed mine => exact .handler listed mine
      | job listed mine =>
          rw [List.mem_singleton.mp listed] at mine
          cases job <;> first | cases mine | cases own
      | slots alive mine => exact .slots alive mine
  | input accepted => exact probing.accepts (accepts_of_eq_some accepted)

theorem run_probing {options : CommonOptions} {permitted : State → Label → Prop}
    {log : List Event} (run : Run (system options) permitted initial log state) :
    state.Probing := by
  induction run with
  | refl => exact initial_probing
  | next run _ step ih => exact step_probing ih (run_delaysSession run) step

end

/-! ## Ends and guards -/

inductive Ending where
  | succeeded
  | failed
  | stopped
  deriving DecidableEq, Repr

/-- The probe that a handler ends, told by what the handler does: it enqueues `closed`, or
it resets the timer of the current probe. -/
def endingOf (handler : Handler) (before after : Io) (notified : Bool) : List (Nat × Ending) :=
  match handler with
  | .stop => before.socketPathHealthCheckTimeout.toList.map fun timeout => (timeout, .stopped)
  | .socketPathHealthCheck _ => if notified then [(after.nextTimeout, .failed)] else []
  | handler =>
      match handler.ofProbe? with
      | none => []
      | some probe =>
          if notified then [(probe.timeout, .failed)]
          else if after.socketPathHealthCheckTimeout ≠ before.socketPathHealthCheckTimeout then
            [(probe.timeout, .succeeded)]
          else []

/-- The probes that end in a step. -/
def endings (state : State) (label : Label) (state' : State) : List (Nat × Ending) :=
  match label, state.handlers with
  | .handler _, handler :: _ =>
      endingOf handler state.io state'.io
        (decide (bindNotices state'.jobs ≠ bindNotices state.jobs))
  | _, _ => []

/-- The probe is current. -/
def State.isCurrent (state : State) (probe : Probe) : Bool :=
  Turn.isCurrentProbe state.scope probe { io := state.io }

/-- The step is an event of the probe: it runs a handler or a signal of the probe, or an
operation of the probe completes. -/
def EventOf (probe : Probe) (state : State) : Label → Prop
  | .handler _ => ∃ handler ∈ state.handlers.head?, handler.ofProbe? = some probe ∨
      ∃ called, handler = .peer (.probe probe.timeout) called
  | .job _ => ∃ job ∈ state.jobs.head?, job.ofProbe? = some probe
  | .input (.healthCheckExpires timeout) => timeout = probe.timeout
  | .input (.healthCheckConnects timeout _) => timeout = probe.timeout
  | .input (.peerCompletes ref _) => ref = .probe probe.timeout
  | .input (.destroy ref) => ref = .probe probe.timeout
  | _ => False

/-- The acceptor and the current probe stay as they are, and no failure is told. -/
structure Unaffected (state state' : State) : Prop where
  timeout : state'.io.socketPathHealthCheckTimeout = state.io.socketPathHealthCheckTimeout
  peer : state'.io.socketPathHealthCheckPeer = state.io.socketPathHealthCheckPeer
  acceptor : state'.io.acceptor = state.io.acceptor
  notices : bindNotices state'.jobs = bindNotices state.jobs

/-- What a step may do to the probes. -/
structure Isolates (state : State) (label : Label) (state' : State) : Prop where
  stale : ∀ probe, EventOf probe state label → state.isCurrent probe = false →
    Unaffected state state'
  ended : ∀ timeout, state.io.socketPathHealthCheckTimeout = some timeout →
    state'.io.socketPathHealthCheckTimeout = some timeout ∨
      ∃ ending, (timeout, ending) ∈ endings state label state'
  vacant : ∀ probe outcome, state.handlers.head? = some (.healthCheckConnect probe .success) →
    label = .handler outcome → state.isCurrent probe = true →
      state.io.socketPathHealthCheckPeer = none
  closed : ∀ timeout, state.io.socketPathHealthCheckPeer = some timeout →
    state'.io.socketPathHealthCheckPeer = some timeout ∨
      ∃ posts, state'.handlers = state.handlers.tail ++ posts ∧
        .peer (.probe timeout) (.close false) ∈ posts

namespace Turn

/-- A handler ends no probe, or one that is current or has just been started. -/
inductive Ends (handler : Handler) (io : Io) (after : Turn) : Prop where
  | kept (quiet : endingOf handler io after.io (decide (bindNotices after.jobs ≠ [])) = [])
      (timeout : after.io.socketPathHealthCheckTimeout = io.socketPathHealthCheckTimeout)
      (nextTimeout : after.io.nextTimeout = io.nextTimeout)
  | started (quiet : endingOf handler io after.io (decide (bindNotices after.jobs ≠ [])) = [])
      (vacant : io.socketPathHealthCheckTimeout = none)
      (timeout : after.io.socketPathHealthCheckTimeout = some after.io.nextTimeout)
      (nextTimeout : after.io.nextTimeout = io.nextTimeout + 1)
  | ended {timeout : Nat} {ending : Ending}
      (one : endingOf handler io after.io (decide (bindNotices after.jobs ≠ [])) =
        [(timeout, ending)])
      (own : io.socketPathHealthCheckTimeout = some timeout)
      (reset : after.io.socketPathHealthCheckTimeout = none)
      (nextTimeout : after.io.nextTimeout = io.nextTimeout)
  | failed (one : endingOf handler io after.io (decide (bindNotices after.jobs ≠ [])) =
        [(after.io.nextTimeout, .failed)])
      (vacant : io.socketPathHealthCheckTimeout = none)
      (reset : after.io.socketPathHealthCheckTimeout = none)
      (nextTimeout : after.io.nextTimeout = io.nextTimeout + 1)

variable {scope : NotificationScope} {io : Io} {handler : Handler} {turn : Turn} {probe : Probe}

/-- A handler that is no event of a probe, no start and no stop. -/
theorem ends_kept (other : handler.ofProbe? = none) (running : handler ≠ .stop)
    (started : ∀ token, handler ≠ .socketPathHealthCheck token) {after : Turn}
    (timeout : after.io.socketPathHealthCheckTimeout = io.socketPathHealthCheckTimeout)
    (nextTimeout : after.io.nextTimeout = io.nextTimeout) : Ends handler io after := by
  refine .kept ?_ timeout nextTimeout
  cases handler with
  | stop => exact absurd rfl running
  | socketPathHealthCheck token => exact absurd rfl (started token)
  | healthCheckTimeout => cases other
  | healthCheckConnect => cases other
  | healthCheckResponse => cases other
  | healthCheckFailed => cases other
  | _ => rfl

/-- The failure of a probe, behind pieces that leave the current one alone. -/
theorem ends_failed (own : handler.ofProbe? = some probe)
    (timeout : turn.io.socketPathHealthCheckTimeout = io.socketPathHealthCheckTimeout)
    (nextTimeout : turn.io.nextTimeout = io.nextTimeout) (jobs : turn.jobs = []) :
    Ends handler io (turn.handleSocketPathHealthCheckFailed scope probe) := by
  cases current : isCurrentProbe scope probe turn with
  | false =>
      rw [handleSocketPathHealthCheckFailed_stale current]
      refine .kept ?_ timeout nextTimeout
      cases handler <;> cases own <;> simp [endingOf, Handler.ofProbe?, jobs, bindNotices, timeout]
  | true =>
      have fails := handleSocketPathHealthCheckFailed_fails current
      have narrows := (handleSocketPathHealthCheckFailed_pieces scope probe turn).narrows
      have pointer : turn.io.socketPathHealthCheckTimeout = some probe.timeout := by
        simpa using (Bool.and_eq_true_iff.mp current).2
      have one : endingOf handler io (turn.handleSocketPathHealthCheckFailed scope probe).io
          (decide (bindNotices (turn.handleSocketPathHealthCheckFailed scope probe).jobs ≠ [])) =
          [(probe.timeout, .failed)] := by
        cases handler <;> cases own <;> simp [endingOf, Handler.ofProbe?, fails.notices]
      exact .ended one (timeout.symm.trans pointer) fails.timeout
        (narrows.nextTimeout.trans nextTimeout)

theorem stop_ends (options : CommonOptions) (scope : NotificationScope) (outcome : BindOutcome)
    (io : Io) : Ends .stop io (run options scope outcome .stop { io }) := by
  have narrows : Narrows { io } (run options scope outcome .stop { io }) :=
    run_narrows options scope outcome rfl { io }
  have reset := closeSocketPathHealthCheckPeer_timeout
    ({ io } : Turn).closeAcceptor.closeAllPeers
  cases present : io.socketPathHealthCheckTimeout with
  | none =>
      refine .kept ?_ (reset.trans present.symm) narrows.nextTimeout
      simp [endingOf, present]
  | some timeout =>
      have one : endingOf .stop io
          (run options scope outcome .stop { io }).io
          (decide (bindNotices (run options scope outcome .stop { io }).jobs ≠ [])) =
          [(timeout, .stopped)] := by
        simp only [endingOf, present, Option.toList_some, List.map_cons, List.map_nil]
      exact .ended one present reset narrows.nextTimeout

theorem onSocketPathHealthCheck_ends (scope : NotificationScope) (token : Nat)
    (outcome : BindOutcome) (io : Io) :
    Ends (.socketPathHealthCheck token) io
      (onSocketPathHealthCheck scope token outcome { io }) := by
  unfold onSocketPathHealthCheck
  split
  · exact .kept rfl rfl rfl
  case h_2 attempt bound =>
    split
    · exact .kept rfl rfl rfl
    case isFalse admitted =>
      have current : scope.isCurrent token = true := by
        by_contra stale
        simp [stale] at admitted
      have vacant : io.socketPathHealthCheckTimeout = none := by
        simpa [current] using admitted
      dsimp only
      split
      · have narrows := (handleSocketPathHealthCheckFailed_pieces scope
          ⟨io.nextTimeout + 1, token, attempt⟩
          { io := { io with
              nextTimeout := io.nextTimeout + 1
              socketPathHealthCheckTimeout := some (io.nextTimeout + 1) } }).narrows
        have fails := @handleSocketPathHealthCheckFailed_fails scope
          ⟨io.nextTimeout + 1, token, attempt⟩
          { io := { io with
              nextTimeout := io.nextTimeout + 1
              socketPathHealthCheckTimeout := some (io.nextTimeout + 1) } }
          (by simp only [isCurrentProbe, current, beq_self_eq_true, Bool.and_self])
        refine .failed ?_ vacant fails.timeout narrows.nextTimeout
        simp [endingOf, fails.notices]
      · exact .started rfl vacant rfl rfl

theorem onHealthCheckConnect_ends (scope : NotificationScope) (probe : Probe)
    (errorCode : ErrorCode) (io : Io) :
    Ends (.healthCheckConnect probe errorCode) io
      (onHealthCheckConnect scope probe errorCode { io }) := by
  unfold onHealthCheckConnect
  split
  · refine .kept ?_ rfl rfl
    simp [endingOf, Handler.ofProbe?, cancelTimeout, bindNotices]
  · split
    · exact ends_failed rfl rfl rfl rfl
    · refine .kept ?_ rfl rfl
      simp [endingOf, Handler.ofProbe?, post, bindNotices]

theorem onHealthCheckResponse_ends (scope : NotificationScope) (probe : Probe) (io : Io) :
    Ends (.healthCheckResponse probe) io (onHealthCheckResponse scope probe { io }) := by
  unfold onHealthCheckResponse
  split
  case isTrue current =>
    have own : io.socketPathHealthCheckTimeout = some probe.timeout := by
      simpa using (Bool.and_eq_true_iff.mp current).2
    have reset := closeSocketPathHealthCheckPeer_timeout { io }
    have narrows := closeSocketPathHealthCheckPeer_narrows { io }
    have silent : bindNotices ({ io } : Turn).closeSocketPathHealthCheckPeer.jobs = [] := by
      refine (bindNotices_aside (resetProbePeer_aside _).jobs).trans ?_
      simp [resetTimeout, own, cancelTimeout, bindNotices]
    have one : endingOf (.healthCheckResponse probe) io
        ({ io } : Turn).closeSocketPathHealthCheckPeer.io
        (decide (bindNotices ({ io } : Turn).closeSocketPathHealthCheckPeer.jobs ≠ [])) =
        [(probe.timeout, .succeeded)] := by
      simp [endingOf, Handler.ofProbe?, silent, reset, own]
    exact .ended one own reset narrows.nextTimeout
  · refine .kept ?_ rfl rfl
    simp [endingOf, Handler.ofProbe?, bindNotices]

/-- How many probes every handler ends. -/
theorem run_ends (options : CommonOptions) (scope : NotificationScope) (outcome : BindOutcome)
    (handler : Handler) (io : Io) : Ends handler io (run options scope outcome handler { io }) := by
  have kept {handler : Handler} {after : Turn} (aside : Aside { io } after)
      (other : handler.ofProbe? = none) (running : handler ≠ .stop)
      (started : ∀ token, handler ≠ .socketPathHealthCheck token) : Ends handler io after :=
    ends_kept other running started aside.timeout aside.nextTimeout
  cases handler with
  | bind token =>
      have pointer := (onBind_probe scope token outcome { io }).1
      have counted := (onBind_pieces scope token outcome { io }).sheds.nextTimeout
      exact ends_kept rfl (by simp) (by simp) pointer counted
  | stop => exact stop_ends options scope outcome io
  | accept accept result =>
      have pointer := (onAccept_probe scope accept result { io }).1
      have sheds : Sheds { io } (run options scope outcome (.accept accept result) { io }) :=
        run_sheds options scope outcome rfl { io }
      exact ends_kept rfl (by simp) (by simp) pointer sheds.nextTimeout
  | peer ref handler =>
      exact kept (runPeer_aside options ref handler _) rfl (by simp) (by simp)
  | socketPathHealthCheck token => exact onSocketPathHealthCheck_ends scope token outcome io
  | healthCheckTimeout probe errorCode =>
      show Ends _ io (onHealthCheckTimeout scope probe errorCode { io })
      unfold onHealthCheckTimeout
      dsimp only
      split
      · exact ends_failed rfl rfl rfl rfl
      · refine .kept ?_ rfl rfl
        simp [endingOf, Handler.ofProbe?, closeProbeSocket, bindNotices]
  | healthCheckConnect probe errorCode => exact onHealthCheckConnect_ends scope probe errorCode io
  | healthCheckResponse probe => exact onHealthCheckResponse_ends scope probe io
  | healthCheckFailed probe errorCode => exact ends_failed rfl rfl rfl rfl
  | _ => exact kept (run_aside options scope outcome rfl { io }) rfl (by simp) (by simp)

/-! ## Events of a probe that is not current -/

/-- A handler of a probe that is not current leaves the acceptor and the current probe
alone. -/
structure Passes (io : Io) (after : Turn) : Prop where
  timeout : after.io.socketPathHealthCheckTimeout = io.socketPathHealthCheckTimeout
  peer : after.io.socketPathHealthCheckPeer = io.socketPathHealthCheckPeer
  acceptor : after.io.acceptor = io.acceptor
  notices : bindNotices after.jobs = []

theorem run_passes (options : CommonOptions) (outcome : BindOutcome)
    (own : handler.ofProbe? = some probe) (stale : isCurrentProbe scope probe { io } = false) :
    Passes io (run options scope outcome handler { io }) := by
  have refused {turn : Turn}
      (timeout : turn.io.socketPathHealthCheckTimeout = io.socketPathHealthCheckTimeout)
      (passes : Passes io turn) :
      Passes io (turn.handleSocketPathHealthCheckFailed scope probe) := by
    have same : isCurrentProbe scope probe turn = isCurrentProbe scope probe { io } := by
      simp only [isCurrentProbe, timeout]
    rw [handleSocketPathHealthCheckFailed_stale (same.trans stale)]
    exact passes
  cases handler with
  | healthCheckTimeout probe' errorCode =>
      cases own
      show Passes io (onHealthCheckTimeout scope probe errorCode { io })
      unfold onHealthCheckTimeout
      dsimp only
      split
      · exact refused rfl ⟨rfl, rfl, rfl, rfl⟩
      · exact ⟨rfl, rfl, rfl, rfl⟩
  | healthCheckConnect probe' errorCode =>
      cases own
      have cancelled : run options scope outcome (.healthCheckConnect probe errorCode) { io } =
          ({ io } : Turn).cancelTimeout probe.timeout := by
        simp [run, onHealthCheckConnect, stale]
      rw [cancelled]
      exact ⟨rfl, rfl, rfl, rfl⟩
  | healthCheckResponse probe' =>
      cases own
      have skipped : run options scope outcome (.healthCheckResponse probe) { io } = { io } := by
        simp [run, onHealthCheckResponse, stale]
      rw [skipped]
      exact ⟨rfl, rfl, rfl, rfl⟩
  | healthCheckFailed probe' errorCode =>
      cases own
      exact refused rfl ⟨rfl, rfl, rfl, rfl⟩
  | _ => cases own

theorem runPeer_passes (options : CommonOptions) (ref : PeerRef) (called : PeerHandler) (io : Io) :
    Passes io (runPeer options ref called { io }) := by
  have aside := runPeer_aside options ref called { io }
  have peer : (runPeer options ref called { io }).io.socketPathHealthCheckPeer =
      io.socketPathHealthCheckPeer := by
    unfold runPeer
    split <;> rfl
  exact ⟨aside.timeout, peer, aside.acceptor, bindNotices_aside aside.jobs⟩

end Turn

/-! ## Steps -/

section

variable {options : CommonOptions} {state state' : State} {label : Label} {events : List Event}

theorem Accepts.unaffected {input : Input} (accepts : Accepts state input events state') :
    Unaffected state state' := by
  cases accepts with
  | asyncStart => exact ⟨rfl, rfl, rfl, by simp [enqueue, bindNotices, Job.bindNotice?]⟩
  | asyncStop => exact ⟨rfl, rfl, rfl, by simp [enqueue, bindNotices, Job.bindNotice?]⟩
  | @destroy ref connection alive released =>
      refine ⟨rfl, rfl, rfl, ?_⟩
      have kept : ∀ job : Job, job.isOf ref = true → job.bindNotice? = none := by
        intro job own
        cases job <;> first | rfl | cases own
      show bindNotices (state.jobs.filter fun job => !job.isOf ref) = bindNotices state.jobs
      induction state.jobs with
      | nil => rfl
      | cons job rest ih =>
          cases own : job.isOf ref with
          | true => simpa [bindNotices, own, kept job own] using ih
          | false =>
              rw [List.filter_cons_of_pos (by simp [own]), bindNotices, bindNotices,
                List.filterMap_cons, List.filterMap_cons]
              cases job.bindNotice? with
              | none => exact ih
              | some notice => exact congrArg (notice :: ·) ih
  | _ => exact ⟨rfl, rfl, rfl, rfl⟩

theorem Accepts.nextTimeout {input : Input} (accepts : Accepts state input events state') :
    state'.io.nextTimeout = state.io.nextTimeout := by
  cases accepts <;> rfl

/-- The endings of a handler, told by what it enqueues. -/
theorem endings_handled {handler : Handler} {rest : List Handler} {turn : Turn}
    (outcome : BindOutcome) (queued : state.handlers = handler :: rest) :
    endings state (.handler outcome) (state.handled rest turn) =
      endingOf handler state.io turn.io (decide (bindNotices turn.jobs ≠ [])) := by
  simp [endings, queued, State.handled]

/-- A step ends the current probe, starts one, or leaves the pointer as it is. -/
inductive StepEnds (state : State) (label : Label) (state' : State) : Prop where
  | kept (quiet : endings state label state' = [])
      (timeout : state'.io.socketPathHealthCheckTimeout = state.io.socketPathHealthCheckTimeout)
      (nextTimeout : state'.io.nextTimeout = state.io.nextTimeout)
  | started (quiet : endings state label state' = [])
      (vacant : state.io.socketPathHealthCheckTimeout = none)
      (timeout : state'.io.socketPathHealthCheckTimeout = some state'.io.nextTimeout)
      (nextTimeout : state'.io.nextTimeout = state.io.nextTimeout + 1)
  | ended {timeout : Nat} {ending : Ending} (one : endings state label state' = [(timeout, ending)])
      (own : state.io.socketPathHealthCheckTimeout = some timeout)
      (reset : state'.io.socketPathHealthCheckTimeout = none)
      (nextTimeout : state'.io.nextTimeout = state.io.nextTimeout)
  | failed (one : endings state label state' = [(state'.io.nextTimeout, .failed)])
      (vacant : state.io.socketPathHealthCheckTimeout = none)
      (reset : state'.io.socketPathHealthCheckTimeout = none)
      (nextTimeout : state'.io.nextTimeout = state.io.nextTimeout + 1)

theorem step_ends (step : (system options).step? state label = some (state', events)) :
    StepEnds state label state' := by
  cases Program.step_of_eq_some step with
  | @handler handler rest queued outcome =>
      have noted := @endings_handled state handler rest
        (Turn.run options state.scope outcome handler { io := state.io }) outcome queued
      cases Turn.run_ends options state.scope outcome handler state.io with
      | kept quiet timeout nextTimeout => exact .kept (noted.trans quiet) timeout nextTimeout
      | started quiet vacant timeout nextTimeout =>
          exact .started (noted.trans quiet) vacant timeout nextTimeout
      | ended one own reset nextTimeout => exact .ended (noted.trans one) own reset nextTimeout
      | failed one vacant reset nextTimeout =>
          exact .failed (noted.trans one) vacant reset nextTimeout
  | job queued verdict => exact .kept rfl rfl rfl
  | delayed idle due => exact .kept rfl rfl rfl
  | input accepted =>
      have accepts := accepts_of_eq_some accepted
      exact .kept rfl accepts.unaffected.timeout accepts.nextTimeout

/-- An event of a probe that is not current. -/
theorem step_unaffected {probe : Probe}
    (step : (system options).step? state label = some (state', events))
    (own : EventOf probe state label) (stale : state.isCurrent probe = false) :
    Unaffected state state' := by
  cases Program.step_of_eq_some step with
  | @handler handler rest queued outcome =>
      have passes : Turn.Passes state.io
          (Turn.run options state.scope outcome handler { io := state.io }) := by
        obtain ⟨handler', first, mine⟩ := own
        rw [queued] at first
        cases first
        rcases mine with mine | ⟨called, rfl⟩
        · exact Turn.run_passes options outcome mine stale
        · exact Turn.runPeer_passes options _ called state.io
      refine ⟨passes.timeout, passes.peer, passes.acceptor, ?_⟩
      refine (bindNotices_append _ _).trans ?_
      exact (congrArg (bindNotices state.jobs ++ ·) passes.notices).trans (List.append_nil _)
  | @job job rest queued verdict =>
      refine ⟨rfl, rfl, rfl, ?_⟩
      obtain ⟨job', first, mine⟩ := own
      rw [queued] at first
      cases first
      have slots : ∃ signal, job = .signal (.healthCheck probe) signal := by
        cases job with
        | signal slots signal =>
            cases slots with
            | accepted => cases mine
            | healthCheck => exact ⟨signal, by cases mine; rfl⟩
        | _ => cases mine
      obtain ⟨signal, rfl⟩ := slots
      have quiet : ∀ effect, effect = healthCheckSlot state.scope probe signal →
          effect.next = [] ∧ effect.jobs = [] := by
        rintro _ rfl
        unfold healthCheckSlot
        split
        · cases signal <;> exact ⟨rfl, rfl⟩
        · exact ⟨rfl, rfl⟩
      obtain ⟨next, jobs⟩ := quiet _ rfl
      show bindNotices ((healthCheckSlot state.scope probe signal).next ++ rest ++
        (healthCheckSlot state.scope probe signal).jobs) = bindNotices state.jobs
      rw [next, jobs, queued, List.append_nil]
      rfl
  | delayed idle due => exact own.elim
  | input accepted => exact (accepts_of_eq_some accepted).unaffected

/-- The peer of a probe is closed before it is forgotten. -/
theorem State.Probing.step_closed (probing : state.Probing)
    (step : (system options).step? state label = some (state', events)) {timeout : Nat}
    (present : state.io.socketPathHealthCheckPeer = some timeout) :
    state'.io.socketPathHealthCheckPeer = some timeout ∨
      ∃ posts, state'.handlers = state.handlers.tail ++ posts ∧
        .peer (.probe timeout) (.close false) ∈ posts := by
  have occupied := (probing.peer timeout present).1
  cases Program.step_of_eq_some step with
  | @handler handler rest queued outcome =>
      have stepped := Turn.run_probeStep options state.scope outcome handler state.io
      cases stepped with
      | narrows narrows =>
          rcases narrows.settles with ⟨_, kept⟩ | ⟨_, _, closed⟩
          · exact .inl (kept.trans present)
          · exact .inr ⟨_, by rw [queued]; rfl, closed timeout present⟩
      | started own vacant same =>
          rw [vacant] at occupied
          cases occupied
      | failed own vacant narrows ended =>
          rw [vacant] at occupied
          cases occupied
      | connected own current same posts jobs =>
          have vacant := probing.vacant_of_connect queued own current
          rw [vacant] at present
          cases present
  | job queued verdict => exact .inl present
  | delayed idle due => exact .inl present
  | input accepted =>
      exact .inl ((accepts_of_eq_some accepted).unaffected.peer.trans present)

theorem State.Probing.isolates (probing : state.Probing)
    (step : (system options).step? state label = some (state', events)) :
    Isolates state label state' where
  stale probe own stale := step_unaffected step own stale
  ended timeout occupied := by
    cases step_ends step with
    | kept quiet same nextTimeout => exact .inl (same.trans occupied)
    | started quiet vacant => simp [vacant] at occupied
    | ended one own =>
        rw [occupied] at own
        cases own
        exact .inr ⟨_, one ▸ List.mem_singleton.mpr rfl⟩
    | failed one vacant => simp [vacant] at occupied
  vacant probe outcome first own current := by
    obtain ⟨rest, queued⟩ := List.head?_eq_some_iff.mp first
    exact probing.vacant_of_connect queued rfl current
  closed timeout present := probing.step_closed step present

end

/-! ## The main result -/

/-- The probes that have ended: none of them twice, and none of them current. -/
structure Ended (notes : List (Nat × Ending)) (state : State) : Prop where
  nodup : (notes.map Prod.fst).Nodup
  numbered : ∀ timeout ∈ notes.map Prod.fst, timeout ≤ state.io.nextTimeout
  past : ∀ timeout ∈ notes.map Prod.fst, state.io.socketPathHealthCheckTimeout ≠ some timeout

theorem Ended.step {state state' : State} {label : Label} {notes : List (Nat × Ending)}
    (ended : Ended notes state) (probing : state.Probing) (step : StepEnds state label state') :
    Ended (notes ++ endings state label state') state' := by
  have next (timeout : Nat) (ending : Ending) (new : timeout ∉ notes.map Prod.fst)
      (bounded : timeout ≤ state'.io.nextTimeout)
      (counted : state.io.nextTimeout ≤ state'.io.nextTimeout)
      (reset : state'.io.socketPathHealthCheckTimeout = none) :
      Ended (notes ++ [(timeout, ending)]) state' := by
    refine ⟨?_, fun other member => ?_, fun other _ => by simp [reset]⟩
    · rw [List.map_append]
      refine List.nodup_append.mpr ⟨ended.nodup, List.nodup_singleton _, ?_⟩
      intro other member last mine same
      rw [List.map_singleton, List.mem_singleton] at mine
      rw [same, mine] at member
      exact new member
    · rw [List.map_append] at member
      rcases List.mem_append.mp member with old | last
      · exact (ended.numbered other old).trans counted
      · rw [List.map_singleton, List.mem_singleton] at last
        exact last ▸ bounded
  cases step with
  | kept quiet timeout nextTimeout =>
      rw [quiet, List.append_nil]
      refine ⟨ended.nodup, fun other member => ?_, fun other member => ?_⟩
      · exact nextTimeout ▸ ended.numbered other member
      · exact timeout ▸ ended.past other member
  | started quiet vacant timeout nextTimeout =>
      rw [quiet, List.append_nil]
      refine ⟨ended.nodup, fun other member => ?_, fun other member => ?_⟩
      · exact nextTimeout ▸ Nat.le_succ_of_le (ended.numbered other member)
      · have bounded := ended.numbered other member
        rw [timeout, ne_eq, Option.some.injEq]
        omega
  | @ended timeout ending one own reset nextTimeout =>
      rw [one]
      exact next timeout ending (fun member => ended.past timeout member own)
        (nextTimeout ▸ probing.current timeout own) nextTimeout.ge reset
  | failed one vacant reset nextTimeout =>
      rw [one]
      refine next _ _ (fun member => ?_) (Nat.le_refl _) (by omega) reset
      have bounded := ended.numbered _ member
      omega

/-- No probe ends twice.  One probe is current at a time, and only its events change the
pointers, the acceptor, or enqueue `closed`; its peer is closed before it is forgotten. -/
theorem probes_isolated (options : CommonOptions) {notes : List (Nat × Ending)} {state : State}
    (run : Run ((system options).observing endings) (fun _ _ => True) initial notes state) :
    (notes.map Prod.fst).Nodup ∧
      (∀ first second, state.Knows first → state.Knows second →
        state.isCurrent first = true → state.isCurrent second = true → first = second) ∧
      ∀ label events state', (system options).step? state label = some (state', events) →
        Isolates state label state' := by
  obtain ⟨log, plain⟩ := Run.of_observing run
  have probing := run_probing plain
  have ended : Ended notes state := by
    clear probing plain
    induction run with
    | refl => exact ⟨List.nodup_nil, nofun, nofun⟩
    | next run permit step ih =>
        obtain ⟨log, plain⟩ := Run.of_observing run
        obtain ⟨events, stepped, rfl⟩ := Run.step_of_observing step
        exact ih.step (run_probing plain) (step_ends stepped)
  refine ⟨ended.nodup, fun first second left right current current' => ?_,
    fun label events state' step => probing.isolates step⟩
  refine probing.distinct first second left right ?_
  have own : ∀ probe : Probe, state.isCurrent probe = true →
      state.io.socketPathHealthCheckTimeout = some probe.timeout := by
    intro probe current
    simpa using (Bool.and_eq_true_iff.mp current).2
  exact Option.some.inj ((own first current).symm.trans (own second current'))

/-- The connect of a probe that was stopped is aborted while the next one is in progress. -/
theorem probes_isolated_late :
    ∃ state, Run ((system {}).observing endings) (fun _ _ => True) initial [(1, .stopped)] state ∧
      state.io.socketPathHealthCheckTimeout = some 2 ∧
      state.handlers = [.healthCheckConnect ⟨1, 0, 1⟩ .operationAborted] ∧
      ∀ events state', (system {}).step? state (.handler .succeeded) = some (state', events) →
        Unaffected state state' := by
  let jobs (count : Nat) : List Label := List.replicate count (.job true)
  let handlers (count : Nat) : List Label := List.replicate count (.handler .succeeded)
  let labels : List Label :=
    [.input .asyncStart] ++ jobs 2 ++ handlers 1 ++ jobs 5 ++ handlers 1 ++
      [.input .asyncStop, .input .asyncStart] ++ jobs 10 ++ handlers 2 ++ jobs 5 ++ handlers 3
  let view (state : State) := (state.io.socketPathHealthCheckTimeout, state.handlers,
    state.isCurrent ⟨1, 0, 1⟩)
  have computed : (Run.steps? ((system {}).observing endings) (fun _ _ => True) initial
      labels).map (fun result => (view result.1, result.2)) =
      some ((some 2, [.healthCheckConnect ⟨1, 0, 1⟩ .operationAborted], false),
        [(1, .stopped)]) := by
    decide +kernel
  obtain ⟨state, run, seen⟩ := Run.of_view computed
  simp only [view, Prod.mk.injEq] at seen
  obtain ⟨occupied, queued, stale⟩ := seen
  refine ⟨state, run, occupied, queued, fun events state' step => ?_⟩
  have isolates := (probes_isolated {} run).2.2 _ events state' step
  exact isolates.stale ⟨1, 0, 1⟩ ⟨_, by rw [queued]; rfl, .inl rfl⟩ stale

end UnixDomainStream.Server
