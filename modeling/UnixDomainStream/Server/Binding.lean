import UnixDomainStream.Server.Stopping

/-!
# The server stays bound

While the scope runs, the server has an acceptor or some work is queued or armed
that will bind one.  An acceptor has an accept outstanding, and a probe in progress
has its wait outstanding, unless a stop is about to end them.
-/

namespace UnixDomainStream.Server

open Library

namespace State

variable (state : State)

abbrev scope : NotificationScope := state.dispatcher.notificationScope

/-- The I/O handler of a `stop()` has still to run. -/
def StopComing : Prop := .stop ∈ state.handlers ∨ .postStop ∈ state.jobs

/-- An accept of the current generation is outstanding, or its handler is queued. -/
def Listening (attempt : Nat) : Prop :=
  ⟨attempt, state.scope.generation⟩ ∈ state.io.accepts ∨
    ∃ result, result ≠ .error .operationAborted ∧
      .accept ⟨attempt, state.scope.generation⟩ result ∈ state.handlers

/-- The probe has its wait or its connect outstanding, or a handler of one queued. -/
def Mentions (probe : Probe) : Prop :=
  probe ∈ state.io.timeoutWaits ∨ probe ∈ state.io.connects ∨
    ∃ handler ∈ state.handlers, handler.probe? = some probe

/-- The wait of a probe of the current generation is outstanding, or it has expired
and its handler is queued. -/
def Timed (timeout : Nat) : Prop :=
  (∀ probe, state.Mentions probe → probe.timeout = timeout →
    probe.token = state.scope.generation) ∧
  ∃ probe, probe.timeout = timeout ∧
    (probe ∈ state.io.timeoutWaits ∨ .healthCheckTimeout probe .success ∈ state.handlers)

/-- The invariant of the acceptor and of the probe in progress. -/
structure Bound : Prop where
  idle : state.scope.running = false → state.StopComing ∨
    (state.io.acceptor = none ∧ state.io.socketPathHealthCheckTimeout = none)
  listening : ∀ attempt, state.io.acceptor = some attempt →
    state.StopComing ∨ state.Listening attempt
  timed : ∀ timeout, state.io.socketPathHealthCheckTimeout = some timeout →
    state.StopComing ∨ state.Timed timeout
  fresh : ∀ probe, state.Mentions probe → probe.timeout ≤ state.io.nextTimeout

end State

theorem initial_bound : initial.Bound where
  idle _ := .inr ⟨rfl, rfl⟩
  listening := nofun
  timed := nofun
  fresh probe mentioned := by
    rcases mentioned with waiting | connecting | ⟨handler, queued, _⟩
    · cases waiting
    · cases connecting
    · cases queued

/-! ## Handlers -/

section

variable {state : State} {handler : Handler} {rest : List Handler} {turn : Turn}

/-- The state after a handler. -/
def State.handled (state : State) (rest : List Handler) (turn : Turn) : State :=
  { state with
    io := turn.io
    handlers := rest ++ turn.posts
    jobs := state.jobs ++ turn.jobs }

theorem State.StopComing.handled (coming : state.StopComing)
    (queued : state.handlers = handler :: rest) (other : handler ≠ .stop) :
    (state.handled rest turn).StopComing := by
  rcases coming with posted | later
  · rw [queued] at posted
    have inRest := (List.mem_cons.mp posted).resolve_left fun same => other same.symm
    exact .inl (List.mem_append_left _ inRest)
  · exact .inr (List.mem_append_left _ later)

/-- What was mentioned after a handler was mentioned before, or is the new probe. -/
theorem State.Mentions.handled {probe : Probe}
    (move : Turn.ProbeMove state.scope handler state.io turn)
    (queued : state.handlers = handler :: rest)
    (mentioned : (state.handled rest turn).Mentions probe) :
    state.Mentions probe ∨ (probe.timeout = state.io.nextTimeout + 1 ∧
      turn.io.nextTimeout = state.io.nextTimeout + 1 ∧
      state.scope.isCurrent probe.token = true) := by
  have own (mentioned : turn.Mentions probe) : state.Mentions probe ∨
      (probe.timeout = state.io.nextTimeout + 1 ∧
        turn.io.nextTimeout = state.io.nextTimeout + 1 ∧
        state.scope.isCurrent probe.token = true) := by
    rcases move.mentioned probe mentioned with (waiting | connecting | ⟨_, member, _⟩) | new
    · exact .inl (.inl waiting)
    · exact .inl (.inr (.inl connecting))
    · cases member
    · exact .inr new
  rcases mentioned with waiting | connecting | ⟨other, member, same⟩
  · exact own (.inl waiting)
  · exact own (.inr (.inl connecting))
  · rcases List.mem_append.mp member with old | new
    · exact .inl (.inr (.inr ⟨other, queued ▸ List.mem_cons_of_mem _ old, same⟩))
    · exact own (.inr (.inr ⟨other, new, same⟩))

/-- An accept whose handler runs is repeated, unless the acceptor is closed. -/
theorem State.Listening.handled {attempt : Nat} (listening : state.Listening attempt)
    (move : Turn.AcceptorMove state.scope handler state.io turn)
    (queued : state.handlers = handler :: rest) (running : state.scope.running = true)
    (before : state.io.acceptor = some attempt) (acceptor : turn.io.acceptor = some attempt) :
    (state.handled rest turn).Listening attempt := by
  have current : state.scope.isCurrent state.scope.generation = true :=
    NotificationScope.isCurrent_iff.mpr ⟨running, rfl⟩
  have kept : (∀ accept ∈ state.io.accepts, accept ∈ turn.io.accepts) →
      (∀ result, handler = .accept ⟨attempt, state.scope.generation⟩ result →
        result ≠ .error .operationAborted →
        ⟨attempt, state.scope.generation⟩ ∈ turn.io.accepts) →
      (state.handled rest turn).Listening attempt := by
    intro accepts own
    rcases listening with outstanding | ⟨result, genuine, posted⟩
    · exact .inl (accepts _ outstanding)
    · rw [queued] at posted
      rcases List.mem_cons.mp posted with same | later
      · exact .inl (own result same.symm genuine)
      · exact .inr ⟨result, genuine, List.mem_append_left _ later⟩
  cases move with
  | kept inert same accepts nextAttempt notices =>
      refine kept (fun accept => accepts ▸ id) fun result own genuine => ?_
      subst own
      exact absurd ⟨current, genuine⟩ inert
  | bound own current' unbound acceptor' accepts nextAttempt notices =>
      rw [before] at unbound
      cases unbound
  | bindFailed own current' unbound acceptor' accepts nextAttempt notices =>
      rw [acceptor] at acceptor'
      cases acceptor'
  | listened own current' same accepts nextAttempt notices =>
      refine kept (fun accept member => accepts ▸ List.mem_append_left _ member) ?_
      intro result own' genuine
      rw [own'] at own
      cases own
      rw [accepts, before]
      exact List.mem_append_right _ (List.mem_singleton.mpr rfl)
  | closed failure acceptor' accepts nextAttempt notices =>
      rw [acceptor] at acceptor'
      cases acceptor'
  | stopped own acceptor' accepts nextAttempt notices =>
      rw [acceptor] at acceptor'
      cases acceptor'

/-- An acceptor that is open after a handler was open before, or it has just been
bound. -/
theorem State.Bound.handled_listening (bound : state.Bound) (settled : ¬ state.StopComing)
    (move : Turn.AcceptorMove state.scope handler state.io turn)
    (queued : state.handlers = handler :: rest) (running : state.scope.running = true)
    {attempt : Nat} (acceptor : turn.io.acceptor = some attempt) :
    (state.handled rest turn).Listening attempt := by
  have kept (same : turn.io.acceptor = state.io.acceptor) :
      (state.handled rest turn).Listening attempt := by
    have before := same.symm.trans acceptor
    exact ((bound.listening attempt before).resolve_left settled).handled move queued running
      before acceptor
  cases move with
  | kept inert same accepts nextAttempt notices => exact kept same
  | bound own current unbound acceptor' accepts nextAttempt notices =>
      have generation := (NotificationScope.isCurrent_iff.mp current).2
      rw [acceptor] at acceptor'
      cases acceptor'
      refine .inl ?_
      show _ ∈ turn.io.accepts
      rw [accepts, ← generation]
      exact List.mem_append_right _ (List.mem_singleton.mpr rfl)
  | bindFailed own current unbound acceptor' => simp [acceptor] at acceptor'
  | listened own current same accepts nextAttempt notices => exact kept same
  | closed failure acceptor' => simp [acceptor] at acceptor'
  | stopped own acceptor' => simp [acceptor] at acceptor'

/-- The probe in progress keeps its wait, or it is a new one. -/
theorem State.Bound.handled_timed (bound : state.Bound)
    (move : Turn.ProbeMove state.scope handler state.io turn)
    (queued : state.handlers = handler :: rest) (running : state.scope.running = true)
    {timeout : Nat} (timed : state.io.socketPathHealthCheckTimeout = some timeout →
      state.Timed timeout)
    (same : turn.io.socketPathHealthCheckTimeout = some timeout) :
    (state.handled rest turn).Timed timeout := by
  have current : ∀ {token : Nat}, state.scope.isCurrent token = true →
      token = state.scope.generation :=
    fun fresh => (NotificationScope.isCurrent_iff.mp fresh).2.symm
  have stale : ∀ {probe : Probe}, probe.token = state.scope.generation →
      state.scope.isCurrent probe.token ≠ false := by
    intro probe own
    simp [NotificationScope.isCurrent_iff.mpr ⟨running, own.symm⟩]
  rcases move.timeout timeout same with
    ⟨old, waits, own⟩ | ⟨new, counted, probe, waiting, ofProbe, fresh⟩
  · obtain ⟨tokens, probe, ofProbe, waiting⟩ := timed old
    constructor
    · intro other mentioned ofOther
      rcases mentioned.handled move queued with earlier | ⟨_, _, fresh⟩
      · exact tokens other earlier ofOther
      · exact current fresh
    · refine ⟨probe, ofProbe, ?_⟩
      rcases waiting with waiting | expired
      · rcases waits probe waiting ofProbe with kept | ⟨other, errorCode, mine, ofOther, refused⟩
        · exact .inl kept
        · have mentioned : state.Mentions other :=
            .inr (.inr ⟨handler, queued ▸ List.mem_cons_self, by rw [mine]; rfl⟩)
          exact absurd refused (stale (tokens other mentioned ofOther))
      · rw [queued] at expired
        rcases List.mem_cons.mp expired with mine | later
        · have mentioned : state.Mentions probe :=
            .inr (.inr ⟨handler, queued ▸ List.mem_cons_self, by rw [← mine]; rfl⟩)
          exact absurd (own probe mine.symm ofProbe) (stale (tokens probe mentioned ofProbe))
        · exact .inr (List.mem_append_left _ later)
  · constructor
    · intro other mentioned ofOther
      rcases mentioned.handled move queued with earlier | ⟨_, _, fresh⟩
      · have bounded := bound.fresh other earlier
        omega
      · exact current fresh
    · exact ⟨probe, ofProbe, .inl waiting⟩

/-- A handler keeps the invariant. -/
theorem State.Bound.handled (bound : state.Bound)
    (acceptorMove : Turn.AcceptorMove state.scope handler state.io turn)
    (probeMove : Turn.ProbeMove state.scope handler state.io turn)
    (queued : state.handlers = handler :: rest) (stop : handler = .stop →
      turn.io.acceptor = none ∧ turn.io.socketPathHealthCheckTimeout = none) :
    (state.handled rest turn).Bound := by
  have fresh : ∀ probe, (state.handled rest turn).Mentions probe →
      probe.timeout ≤ turn.io.nextTimeout := by
    intro probe mentioned
    have counted := probeMove.nextTimeout
    rcases mentioned.handled probeMove queued with earlier | ⟨new, counted', _⟩
    · exact (bound.fresh probe earlier).trans counted
    · omega
  by_cases own : handler = .stop
  · obtain ⟨acceptor, timeout⟩ := stop own
    refine ⟨fun _ => .inr ⟨acceptor, timeout⟩, ?_, ?_, fresh⟩
    · intro attempt same
      exact absurd (acceptor.symm.trans same) (by simp)
    · intro timeout' same
      exact absurd (timeout.symm.trans same) (by simp)
  by_cases coming : state.StopComing
  · have coming' : (state.handled rest turn).StopComing := coming.handled queued own
    exact ⟨fun _ => .inl coming', fun _ _ => .inl coming', fun _ _ => .inl coming', fresh⟩
  cases running : state.scope.running with
  | false =>
      obtain ⟨acceptor, timeout⟩ := (bound.idle running).resolve_left coming
      have stale : ∀ token, state.scope.isCurrent token = false := by
        simp [NotificationScope.isCurrent, running]
      have acceptor' : turn.io.acceptor = none := by
        cases acceptorMove with
        | kept inert same => exact same.trans acceptor
        | bound own current => simp [stale] at current
        | bindFailed own current unbound same => exact same
        | listened own current => simp [stale] at current
        | closed failure same => exact same
        | stopped own same => exact same
      have timeout' : turn.io.socketPathHealthCheckTimeout = none := by
        cases same : turn.io.socketPathHealthCheckTimeout with
        | none => rfl
        | some number =>
            rcases probeMove.timeout number same with ⟨old, _⟩ | ⟨_, _, probe, _, _, current⟩
            · simp [timeout] at old
            · simp [stale] at current
      refine ⟨fun _ => .inr ⟨acceptor', timeout'⟩, ?_, ?_, fresh⟩
      · intro attempt same
        exact absurd (acceptor'.symm.trans same) (by simp)
      · intro number same
        exact absurd (timeout'.symm.trans same) (by simp)
  | true =>
      refine ⟨fun halted => ?_, ?_, ?_, fresh⟩
      · exact absurd (running.symm.trans halted) (by simp)
      · intro attempt acceptor
        exact .inr (bound.handled_listening coming acceptorMove queued running acceptor)
      · intro timeout same
        exact .inr (bound.handled_timed probeMove queued running
          (fun old => (bound.timed timeout old).resolve_left coming) same)

end

/-! ## Jobs and the environment -/

section

variable {state state' : State}

/-- The members that concern the acceptor and the probes are the same. -/
structure Io.Same (before after : Io) : Prop where
  acceptor : after.acceptor = before.acceptor
  accepts : after.accepts = before.accepts
  timeout : after.socketPathHealthCheckTimeout = before.socketPathHealthCheckTimeout
  nextTimeout : after.nextTimeout = before.nextTimeout
  timeoutWaits : after.timeoutWaits = before.timeoutWaits
  connects : after.connects = before.connects

theorem Io.Same.refl (io : Io) : io.Same io := ⟨rfl, rfl, rfl, rfl, rfl, rfl⟩

/-- A step that only queues handlers, and changes the scope only when a stop comes. -/
theorem State.Bound.of_queued (bound : state.Bound) (io : state.io.Same state'.io)
    (handlers : Appends (fun handler => handler.probe? = none) state.handlers state'.handlers)
    (coming : state.StopComing → state'.StopComing)
    (scope : ¬ state'.StopComing → state'.scope.generation = state.scope.generation ∧
      (state'.scope.running = false → state.scope.running = false)) : state'.Bound := by
  obtain ⟨more, posted, unprobed⟩ := handlers
  have mentions : ∀ probe, state'.Mentions probe → state.Mentions probe := by
    rintro probe (waiting | connecting | ⟨handler, queued, same⟩)
    · exact .inl (io.timeoutWaits ▸ waiting)
    · exact .inr (.inl (io.connects ▸ connecting))
    · rw [posted] at queued
      rcases List.mem_append.mp queued with old | new
      · exact .inr (.inr ⟨handler, old, same⟩)
      · exact absurd (unprobed handler new) (by simp [same])
  have fresh : ∀ probe, state'.Mentions probe → probe.timeout ≤ state'.io.nextTimeout :=
    fun probe mentioned => io.nextTimeout ▸ bound.fresh probe (mentions probe mentioned)
  have old : ∀ {handler : Handler}, handler ∈ state.handlers → handler ∈ state'.handlers :=
    fun queued => posted ▸ List.mem_append_left _ queued
  by_cases settled : state'.StopComing
  · exact ⟨fun _ => .inl settled, fun _ _ => .inl settled, fun _ _ => .inl settled, fresh⟩
  obtain ⟨generation, halted⟩ := scope settled
  have settled' : ¬ state.StopComing := fun before => settled (coming before)
  refine ⟨fun stopped => ?_, fun attempt acceptor => ?_, fun timeout same => ?_, fresh⟩
  · rw [io.acceptor, io.timeout]
    exact .inr ((bound.idle (halted stopped)).resolve_left settled')
  · refine .inr ?_
    unfold State.Listening
    rw [io.accepts, generation]
    rw [io.acceptor] at acceptor
    exact ((bound.listening attempt acceptor).resolve_left settled').imp_right
      fun ⟨result, genuine, queued⟩ => ⟨result, genuine, old queued⟩
  · rw [io.timeout] at same
    obtain ⟨tokens, probe, ofProbe, waiting⟩ := (bound.timed timeout same).resolve_left settled'
    refine .inr ⟨fun other mentioned ofOther => ?_, probe, ofProbe, ?_⟩
    · rw [generation]
      exact tokens other (mentions other mentioned) ofOther
    · rw [io.timeoutWaits]
      exact waiting.imp_right old

theorem State.Bound.job {job : Job} {rest : List Job} {verdict : Bool}
    (bound : state.Bound) (stopping : ∃ todo rest, Stopping state todo rest)
    (queued : state.jobs = job :: rest)
    (dispatcher : state'.dispatcher = (perform state.dispatcher job verdict).1)
    (io : state'.io = state.io)
    (handlers : state'.handlers =
      state.handlers ++ (perform state.dispatcher job verdict).2.posts)
    (jobs : state'.jobs = (perform state.dispatcher job verdict).2.next ++ rest ++
      (perform state.dispatcher job verdict).2.jobs) : state'.Bound := by
  have scope : state'.scope = _ :=
    (congrArg Dispatcher.notificationScope dispatcher).trans
      (perform_scope state.dispatcher job verdict)
  refine bound.of_queued (io ▸ .refl _) ?_ ?_ ?_
  · rw [handlers]
    exact .append (fun handler posted => (perform_posts _ job verdict handler posted).1) _
  · rintro (posted | later)
    · exact .inl (handlers ▸ List.mem_append_left _ posted)
    · rw [queued] at later
      rcases List.mem_cons.mp later with own | inRest
      · subst own
        exact .inl (handlers ▸ List.mem_append_right _ (List.mem_singleton.mpr rfl))
      · exact .inr (jobs ▸ List.mem_append_left _ (List.mem_append_right _ inRest))
  · intro settled
    rw [scope]
    split
    · exact ⟨rfl, nofun⟩
    · refine absurd (.inr ?_) settled
      rw [jobs]
      simp [perform]
    · refine absurd (.inr ?_) settled
      obtain ⟨todo, others, stopping⟩ := stopping
      have later := stopping.last queued rfl (by simp)
      rw [jobs]
      exact List.mem_append_left _ (List.mem_append_right _ later)
    · exact ⟨rfl, id⟩

/-- The handler of an accept is queued in place of the accept. -/
theorem State.Bound.acceptCompletes {accept : Accept} {rest : List Accept} {result : AcceptResult}
    (bound : state.Bound) (outstanding : state.io.accepts = accept :: rest)
    (genuine : result ≠ .error .operationAborted) :
    State.Bound (post (.accept accept result)
      { state with io := { state.io with accepts := rest } }) := by
  have mentions : ∀ probe, State.Mentions (post (.accept accept result)
      { state with io := { state.io with accepts := rest } }) probe → state.Mentions probe := by
    rintro probe (waiting | connecting | ⟨handler, queued, same⟩)
    · exact .inl waiting
    · exact .inr (.inl connecting)
    · rcases List.mem_append.mp queued with old | new
      · exact .inr (.inr ⟨handler, old, same⟩)
      · rw [List.mem_singleton.mp new] at same
        cases same
  have coming : state.StopComing → State.StopComing (post (.accept accept result)
      { state with io := { state.io with accepts := rest } }) :=
    Or.imp_left (List.mem_append_left _)
  refine ⟨fun halted => (bound.idle halted).imp_left coming, fun attempt acceptor => ?_,
    fun timeout same => ?_, fun probe mentioned => bound.fresh probe (mentions probe mentioned)⟩
  · refine (bound.listening attempt acceptor).imp coming ?_
    rintro (listed | ⟨other, genuine', queued⟩)
    · rw [outstanding] at listed
      rcases List.mem_cons.mp listed with own | later
      · exact .inr ⟨result, genuine, List.mem_append_right _ (List.mem_singleton.mpr (own ▸ rfl))⟩
      · exact .inl later
    · exact .inr ⟨other, genuine', List.mem_append_left _ queued⟩
  · refine (bound.timed timeout same).imp coming ?_
    rintro ⟨tokens, probe, ofProbe, waiting⟩
    exact ⟨fun other mentioned => tokens other (mentions other mentioned), probe, ofProbe,
      waiting.imp_right (List.mem_append_left _)⟩

/-- The handler of a probe is queued in place of its wait or its connect. -/
theorem State.Bound.probeCompletes {probe : Probe} {handler : Handler}
    {timeoutWaits connects : List Probe} (bound : state.Bound)
    (own : handler.probe? = some probe) (mentioned : state.Mentions probe)
    (waits : ∀ other ∈ timeoutWaits, other ∈ state.io.timeoutWaits)
    (open' : ∀ other ∈ connects, other ∈ state.io.connects)
    (kept : ∀ other ∈ state.io.timeoutWaits, other ∈ timeoutWaits ∨
      (other.timeout = probe.timeout ∧ handler = .healthCheckTimeout probe .success)) :
    State.Bound (post handler
      { state with io := { state.io with timeoutWaits, connects } }) := by
  have mentions : ∀ other, State.Mentions (post handler
      { state with io := { state.io with timeoutWaits, connects } }) other →
      state.Mentions other := by
    rintro other (waiting | connecting | ⟨handler', queued, same⟩)
    · exact .inl (waits other waiting)
    · exact .inr (.inl (open' other connecting))
    · rcases List.mem_append.mp queued with old | new
      · exact .inr (.inr ⟨handler', old, same⟩)
      · rw [List.mem_singleton.mp new, own] at same
        exact Option.some.inj same ▸ mentioned
  have coming : state.StopComing → State.StopComing (post handler
      { state with io := { state.io with timeoutWaits, connects } }) :=
    Or.imp_left (List.mem_append_left _)
  refine ⟨fun halted => (bound.idle halted).imp_left coming, fun attempt acceptor => ?_,
    fun timeout same => ?_, fun other listed => bound.fresh other (mentions other listed)⟩
  · refine (bound.listening attempt acceptor).imp coming ?_
    exact Or.imp_right fun ⟨result, genuine, queued⟩ =>
      ⟨result, genuine, List.mem_append_left _ queued⟩
  · refine (bound.timed timeout same).imp coming ?_
    rintro ⟨tokens, other, ofOther, waiting⟩
    have tokens' := fun third listed => tokens third (mentions third listed)
    rcases waiting with waiting | expired
    · rcases kept other waiting with still | ⟨twin, expires⟩
      · exact ⟨tokens', other, ofOther, .inl still⟩
      · exact ⟨tokens', probe, twin.symm.trans ofOther,
          .inr (List.mem_append_right _ (List.mem_singleton.mpr expires.symm))⟩
    · exact ⟨tokens', other, ofOther, .inr (List.mem_append_left _ expired)⟩

theorem acceptCompletes_genuine {result : AcceptResult} {events : List Event}
    (accepted : accept? state (.acceptCompletes result) = some (state', events)) :
    result ≠ .error .operationAborted := by
  rintro rfl
  simp only [accept?] at accepted
  split at accepted
  · cases accepted
  · simp at accepted

theorem State.Bound.accepts {input : Input} {events : List Event} (bound : state.Bound)
    (accepted : accept? state input = some (state', events)) : state'.Bound := by
  have posted : ∀ {state' : State} {handler : Handler}, state.io.Same state'.io →
      state'.handlers = state.handlers ++ [handler] → handler.probe? = none →
      state'.jobs = state.jobs → state'.dispatcher = state.dispatcher → state'.Bound := by
    intro state' handler io handlers other jobs dispatcher
    refine bound.of_queued io ?_ ?_ fun _ => ?_
    · rw [handlers]
      refine .single ?_ _
      exact other
    · rintro (queued | later)
      · exact .inl (handlers ▸ List.mem_append_left _ queued)
      · exact .inr (jobs ▸ later)
    · unfold State.scope
      rw [dispatcher]
      exact ⟨rfl, id⟩
  cases accepts_of_eq_some accepted with
  | asyncStart =>
      exact bound.of_queued (.refl _) (.refl _) (Or.imp_right (List.mem_append_left _))
        fun _ => ⟨rfl, id⟩
  | asyncStop =>
      exact bound.of_queued (.refl _) (.refl _) (Or.imp_right (List.mem_append_left _))
        fun _ => ⟨rfl, id⟩
  | asyncSend id data => exact posted (.refl _) rfl rfl rfl rfl
  | asyncRespond id requestId data => exact posted (.refl _) rfl rfl rfl rfl
  | asyncRequest call id data => exact posted (.refl _) rfl rfl rfl rfl
  | asyncClosePeer id => exact posted (.refl _) rfl rfl rfl rfl
  | acceptCompletes result outstanding =>
      exact bound.acceptCompletes outstanding (acceptCompletes_genuine accepted)
  | peerCompletes alive completes =>
      exact posted ⟨rfl, rfl, rfl, rfl, rfl, rfl⟩ rfl rfl rfl rfl
  | requestExpires expires => exact posted ⟨rfl, rfl, rfl, rfl, rfl, rfl⟩ rfl rfl rfl rfl
  | @healthCheckExpires probe outstanding =>
      refine bound.probeCompletes rfl (.inl outstanding)
        (fun _ member => (List.mem_filter.mp member).1) (fun _ => id) fun other waiting => ?_
      by_cases twin : other.timeout = probe.timeout
      · exact .inr ⟨twin, rfl⟩
      · exact .inl (List.mem_filter.mpr ⟨waiting, by simpa using twin⟩)
  | healthCheckConnects errorCode outstanding =>
      exact bound.probeCompletes rfl (.inr (.inl outstanding)) (fun _ => id)
        (fun _ member => (List.mem_filter.mp member).1) fun _ => .inl
  | destroy alive released =>
      refine bound.of_queued ⟨rfl, rfl, rfl, rfl, rfl, rfl⟩ (.refl _) ?_ fun _ => ⟨rfl, id⟩
      exact Or.imp_right fun later => List.mem_filter.mpr ⟨later, rfl⟩

theorem step_bound {options : CommonOptions} {label : Label} {events : List Event}
    (bound : state.Bound) (stopping : ∃ todo rest, Stopping state todo rest)
    (step : (system options).step? state label = some (state', events)) : state'.Bound := by
  cases Program.step_of_eq_some step with
  | @handler handler rest queued outcome =>
      refine bound.handled (Turn.run_acceptorMove options state.scope outcome handler state.io)
        (Turn.run_probeMove options state.scope outcome handler state.io) queued ?_
      rintro rfl
      refine ⟨?_, Turn.closeSocketPathHealthCheckPeer_timeout _⟩
      cases Turn.stop_acceptorMove state.scope state.io with
      | kept inert => exact absurd trivial inert
      | bound own => cases own
      | bindFailed own => cases own
      | listened own => cases own
      | closed failure => cases failure
      | stopped own acceptor => exact acceptor
  | job queued verdict => exact bound.job stopping queued rfl rfl rfl rfl
  | delayed idle due =>
      refine bound.of_queued (.refl _) (.refl _) ?_ fun _ => ⟨rfl, id⟩
      rintro (queued | later)
      · exact .inl queued
      · rw [idle] at later
        cases later
  | input accepted => exact bound.accepts accepted

theorem run_bound {options : CommonOptions} {permitted : State → Label → Prop}
    {log : List Event} (run : Run (system options) permitted initial log state) :
    state.Bound := by
  induction run with
  | refl => exact initial_bound
  | next run _ step ih => exact step_bound ih (run_stopping run) step

end

/-! ## A bind to come -/

/-- A job that leads to a bind is queued or armed. -/
inductive Retrying (dispatcher : Dispatcher) (jobs delayed : List Job) : Prop where
  | bind (queued : .bind ∈ jobs)
  | failed {attempt : Nat} {errorCode : ErrorCode}
      (queued : .notify dispatcher.notificationScope.generation
        (.bindFailed attempt errorCode) ∈ jobs)
  | closed {attempt : Nat}
      (queued : .notify dispatcher.notificationScope.generation (.closed attempt) ∈ jobs)
  | schedule (queued : .scheduleBindRetry ∈ jobs)
  | debounce (queued : .debounceBindRetry ∈ jobs)
  | debounced (front back : List Job) (queued : jobs = front ++ .bindRetryDebounced :: back)
      (uncancelled : .bindRetryCancelled ∉ back)
  | armed (queued : .bindRetry dispatcher.bindRetryTask.generation ∈ jobs ++ delayed)
      (uncancelled : .bindRetryCancelled ∉ jobs)

/-- What leads from a running scope to an acceptor: the acceptor itself, or a bind
behind every stop, or a job that leads to one. -/
inductive Hopeful (state : State) : Prop where
  | bound (bound : state.io.acceptor ≠ none) (unstopped : .stop ∉ state.handlers)
  | handler (front back : List Handler)
      (queued : state.handlers = front ++ .bind state.scope.generation :: back)
      (unstopped : .stop ∉ back)
  | retrying (retrying : Retrying state.dispatcher state.jobs state.delayed)

/-- What a job does to the retry task. -/
theorem perform_retry (dispatcher : Dispatcher) (job : Job) (verdict : Bool) :
    (perform dispatcher job verdict).1.bindRetryTask =
        (if job = .bindRetryDebounced ∨ job = .bindRetryCancelled then
          dispatcher.bindRetryTask.advance
        else dispatcher.bindRetryTask) ∧
      .bindRetryCancelled ∉ (perform dispatcher job verdict).2.next ∧
      (.bindRetryCancelled ∈ (perform dispatcher job verdict).2.jobs → job = .cancelBindRetry) ∧
      .bindRetryCancelled ∉ (perform dispatcher job verdict).2.delayed := by
  cases job with
  | signal slots sent =>
      cases slots with
      | accepted => cases sent <;> simp [perform, slot, acceptedSlot]
      | healthCheck probe =>
          cases current : dispatcher.notificationScope.isCurrent probe.token <;>
            cases sent <;> simp [perform, slot, healthCheckSlot, current]
  | notify token notice =>
      cases current : dispatcher.notificationScope.isCurrent token with
      | false => simp [perform, current]
      | true =>
          cases notice with
          | ready => cases verdict <;> simp [perform, current, notify]
          | _ => simp [perform, current, notify]
  | startHealthCheckTimer =>
      cases running : dispatcher.notificationScope.running <;> simp [perform, running]
  | debounceBindRetry =>
      cases running : dispatcher.notificationScope.running <;> simp [perform, running]
  | bindRetry generation =>
      by_cases due : dispatcher.bindRetryTask.generation = generation ∧
        dispatcher.notificationScope.running = true <;> simp [perform, due]
  | healthCheckTimerCall functionId =>
      by_cases due : dispatcher.socketPathHealthCheckTimer.currentFunctionId = functionId <;>
        cases active : dispatcher.socketPathHealthCheckTimer.function <;>
          simp [perform, due, active]
  | _ => simp [perform, ifExposed]

/-- Only a part of a stop changes the generation. -/
theorem perform_generation (dispatcher : Dispatcher) {job : Job} (verdict : Bool)
    (unpart : job.isStopPart = false) :
    (perform dispatcher job verdict).1.notificationScope.generation =
      dispatcher.notificationScope.generation := by
  rw [perform_scope]
  split
  · rfl
  · rfl
  · cases unpart
  · rfl

namespace Retrying

variable {dispatcher : Dispatcher} {jobs delayed : List Job}

/-- Jobs queued behind, other than a cancellation. -/
theorem append (retrying : Retrying dispatcher jobs delayed) {more : List Job}
    (uncancelled : .bindRetryCancelled ∉ more) : Retrying dispatcher (jobs ++ more) delayed := by
  cases retrying with
  | bind queued => exact .bind (List.mem_append_left _ queued)
  | failed queued => exact .failed (List.mem_append_left _ queued)
  | closed queued => exact .closed (List.mem_append_left _ queued)
  | schedule queued => exact .schedule (List.mem_append_left _ queued)
  | debounce queued => exact .debounce (List.mem_append_left _ queued)
  | debounced front back queued uncancelled' =>
      refine .debounced front (back ++ more) (by simp [queued]) ?_
      exact fun member => (List.mem_append.mp member).elim uncancelled' uncancelled
  | armed queued uncancelled' =>
      refine .armed ?_ fun member => (List.mem_append.mp member).elim uncancelled' uncancelled
      simp only [List.mem_append] at queued ⊢
      exact queued.imp_left .inl

/-- A delayed job becomes ready. -/
theorem ready {index : Nat} {job : Job} (retrying : Retrying dispatcher [] delayed)
    (due : delayed[index]? = some job) (other : job ≠ .bindRetryCancelled) :
    Retrying dispatcher [job] (delayed.eraseIdx index) := by
  cases retrying with
  | bind queued => cases queued
  | failed queued => cases queued
  | closed queued => cases queued
  | schedule queued => cases queued
  | debounce queued => cases queued
  | debounced front back queued => simp at queued
  | armed queued uncancelled =>
      refine .armed ?_ (by simpa using Ne.symm other)
      obtain ⟨other', at'⟩ := List.mem_iff_getElem?.mp queued
      by_cases same : other' = index
      · rw [List.nil_append, same, due] at at'
        rw [Option.some.inj at']
        exact List.mem_append_left _ (List.mem_singleton.mpr rfl)
      · exact List.mem_append_right _ (List.mem_eraseIdx_iff_getElem?.mpr ⟨other', same, at'⟩)

/-- The jobs of a peer object that ends are dropped. -/
theorem filter (retrying : Retrying dispatcher jobs delayed) (ref : PeerRef) :
    Retrying dispatcher (jobs.filter fun job => !job.isOf ref) delayed := by
  have kept : ∀ {job : Job}, job.isOf ref = false → job ∈ jobs →
      job ∈ jobs.filter fun job => !job.isOf ref :=
    fun other queued => List.mem_filter.mpr ⟨queued, by simp [other]⟩
  cases retrying with
  | bind queued => exact .bind (kept rfl queued)
  | failed queued => exact .failed (kept rfl queued)
  | closed queued => exact .closed (kept rfl queued)
  | schedule queued => exact .schedule (kept rfl queued)
  | debounce queued => exact .debounce (kept rfl queued)
  | debounced front back queued uncancelled =>
      refine .debounced (front.filter fun job => !job.isOf ref)
        (back.filter fun job => !job.isOf ref) ?_ fun member =>
          uncancelled (List.mem_filter.mp member).1
      rw [queued, List.filter_append, List.filter_cons_of_pos rfl]
  | armed queued uncancelled =>
      refine .armed ?_ fun member => uncancelled (List.mem_filter.mp member).1
      simp only [List.mem_append] at queued ⊢
      exact queued.imp_left (kept rfl)

/-- A job that belongs to no stop leaves the retry on its way, or posts the bind. -/
theorem job {job : Job} {rest : List Job} (retrying : Retrying dispatcher (job :: rest) delayed)
    (running : dispatcher.notificationScope.running = true) (verdict : Bool)
    (unpart : job.isStopPart = false) :
    Retrying (perform dispatcher job verdict).1
      ((perform dispatcher job verdict).2.next ++ rest ++ (perform dispatcher job verdict).2.jobs)
      (delayed ++ (perform dispatcher job verdict).2.delayed) ∨
    (perform dispatcher job verdict).2.posts = [.bind dispatcher.notificationScope.generation] := by
  have generation := perform_generation dispatcher verdict unpart
  obtain ⟨task, next, jobs, _⟩ := perform_retry dispatcher job verdict
  have later : ∀ {other : Job}, other ∈ rest →
      other ∈ (perform dispatcher job verdict).2.next ++ rest ++
        (perform dispatcher job verdict).2.jobs :=
    fun member => List.mem_append_left _ (List.mem_append_right _ member)
  have first : ∀ {other : Job}, other ∈ (perform dispatcher job verdict).2.next →
      other ∈ (perform dispatcher job verdict).2.next ++ rest ++
        (perform dispatcher job verdict).2.jobs :=
    fun member => List.mem_append_left _ (List.mem_append_left _ member)
  have uncancelled : .bindRetryCancelled ∉ (perform dispatcher job verdict).2.jobs := by
    intro member
    rw [jobs member] at unpart
    cases unpart
  cases retrying with
  | bind queued =>
      rcases List.mem_cons.mp queued with rfl | member
      · exact .inr rfl
      · exact .inl (.bind (later member))
  | @failed attempt errorCode queued =>
      rcases List.mem_cons.mp queued with rfl | member
      · refine .inl (.schedule (first ?_))
        simp [perform, NotificationScope.isCurrent, running, notify]
      · exact .inl (.failed (generation ▸ later member))
  | closed queued =>
      rcases List.mem_cons.mp queued with rfl | member
      · refine .inl (.schedule (first ?_))
        simp [perform, NotificationScope.isCurrent, running, notify]
      · exact .inl (.closed (generation ▸ later member))
  | schedule queued =>
      rcases List.mem_cons.mp queued with rfl | member
      · exact .inl (.debounce (first (List.mem_singleton.mpr rfl)))
      · exact .inl (.schedule (later member))
  | debounce queued =>
      rcases List.mem_cons.mp queued with rfl | member
      · refine .inl (.debounced rest [] ?_ List.not_mem_nil)
        simp [perform, running]
      · exact .inl (.debounce (later member))
  | debounced front back queued uncancelled' =>
      cases front with
      | nil =>
          obtain ⟨rfl, rfl⟩ := List.cons.inj queued
          refine .inl (.armed (List.mem_append_right _ (List.mem_append_right _ ?_)) ?_)
          · exact List.mem_singleton.mpr rfl
          · simpa [perform] using uncancelled'
      | cons early front =>
          obtain ⟨rfl, rfl⟩ := List.cons.inj queued
          refine .inl (.debounced ((perform dispatcher job verdict).2.next ++ front)
            (back ++ (perform dispatcher job verdict).2.jobs) (by simp) ?_)
          exact fun member => (List.mem_append.mp member).elim uncancelled' uncancelled
  | armed queued uncancelled' =>
      have kept : .bindRetryCancelled ∉ (perform dispatcher job verdict).2.next ++ rest ++
          (perform dispatcher job verdict).2.jobs := by
        simp only [List.mem_append, not_or]
        exact ⟨⟨next, fun member => uncancelled' (List.mem_cons_of_mem _ member)⟩, uncancelled⟩
      by_cases debounced : job = .bindRetryDebounced
      · subst debounced
        refine .inl (.armed ?_ kept)
        simp [perform]
      by_cases own : job = .bindRetry dispatcher.bindRetryTask.generation
      · subst own
        refine .inl (.bind (first ?_))
        simp [perform, running]
      · have cancelled : job ≠ .bindRetryCancelled := fun same =>
          uncancelled' (same ▸ List.mem_cons_self)
        have same : (perform dispatcher job verdict).1.bindRetryTask =
            dispatcher.bindRetryTask := by
          rw [task, if_neg (by simp [debounced, cancelled])]
        refine .inl (.armed ?_ kept)
        rw [same]
        rcases List.mem_append.mp queued with ready | member
        · have inRest := (List.mem_cons.mp ready).resolve_left fun same' => own same'.symm
          exact List.mem_append_left _ (later inRest)
        · exact List.mem_append_right _ (List.mem_append_left _ member)

end Retrying

/-- While the scope runs, there is hope. -/
def State.Hoping (state : State) : Prop := state.scope.running = true → Hopeful state

section

variable {state state' : State}

/-- Handlers and jobs queued behind, other than a stop or a cancellation. -/
theorem Hopeful.of_queued (hopeful : Hopeful state) {handlers : List Handler} {jobs : List Job}
    (acceptor : state'.io.acceptor = state.io.acceptor)
    (dispatcher : state'.dispatcher = state.dispatcher) (delayed : state'.delayed = state.delayed)
    (posted : state'.handlers = state.handlers ++ handlers) (unstopped : .stop ∉ handlers)
    (queued : state'.jobs = state.jobs ++ jobs) (uncancelled : .bindRetryCancelled ∉ jobs) :
    Hopeful state' := by
  have scope : state'.scope = state.scope := congrArg Dispatcher.notificationScope dispatcher
  cases hopeful with
  | bound bound unstopped' =>
      refine .bound (acceptor ▸ bound) ?_
      rw [posted]
      exact fun member => (List.mem_append.mp member).elim unstopped' unstopped
  | handler front back listed unstopped' =>
      refine .handler front (back ++ handlers) ?_ ?_
      · rw [posted, listed, scope, List.append_assoc, List.cons_append]
      · exact fun member => (List.mem_append.mp member).elim unstopped' unstopped
  | retrying retrying =>
      rw [← dispatcher, ← delayed] at retrying
      exact .retrying (queued ▸ retrying.append uncancelled)

/-- The handlers of a state are done one by one. -/
theorem Hopeful.handled {handler : Handler} {rest : List Handler} {turn : Turn}
    (hopeful : Hopeful state) (move : Turn.AcceptorMove state.scope handler state.io turn)
    (probeMove : Turn.ProbeMove state.scope handler state.io turn)
    (queued : state.handlers = handler :: rest) (running : state.scope.running = true) :
    Hopeful (state.handled rest turn) := by
  have unstopped : .stop ∉ turn.posts := fun member => by cases probeMove.posts _ member
  have uncancelled : .bindRetryCancelled ∉ turn.jobs := fun member => by
    cases probeMove.jobs _ member
  have generation : ∀ {token : Nat}, state.scope.isCurrent token = true →
      token = state.scope.generation :=
    fun current => (NotificationScope.isCurrent_iff.mp current).2.symm
  have noticed : ∀ {token : Nat} {notice : Notice}, bindNotices turn.jobs = [(token, notice)] →
      .notify token notice ∈ state.jobs ++ turn.jobs := by
    intro token notice notices
    have member : (token, notice) ∈ bindNotices turn.jobs := by simp [notices]
    obtain ⟨job, listed, same⟩ := List.mem_filterMap.mp member
    refine List.mem_append_right _ ?_
    cases job with
    | notify token' notice' =>
        cases notice' <;> simp only [Job.bindNotice?, Option.some.injEq, Prod.mk.injEq,
          reduceCtorEq] at same <;> (obtain ⟨rfl, rfl⟩ := same; exact listed)
    | _ => cases same
  cases hopeful with
  | bound bound unstopped' =>
      rw [queued, List.mem_cons, not_or] at unstopped'
      have kept (same : turn.io.acceptor = state.io.acceptor) :
          Hopeful (state.handled rest turn) := by
        refine .bound (fun none => bound (same ▸ none)) ?_
        exact fun member => (List.mem_append.mp member).elim unstopped'.2 unstopped
      cases move with
      | kept inert same => exact kept same
      | bound own current unbound => exact absurd unbound bound
      | bindFailed own current unbound => exact absurd unbound bound
      | listened own current same => exact kept same
      | closed failure acceptor accepts nextAttempt notices =>
          have fresh := generation failure.current
          exact .retrying (.closed (fresh ▸ noticed notices))
      | stopped own => exact absurd own.symm unstopped'.1
  | handler front back listed unstopped' =>
      have later : .stop ∉ back ++ turn.posts := fun member =>
        (List.mem_append.mp member).elim unstopped' unstopped
      have split := queued.symm.trans listed
      cases front with
      | nil =>
          obtain ⟨rfl, rfl⟩ := List.cons.inj split
          cases move with
          | kept inert same =>
              refine .bound (fun none => inert ⟨?_, same ▸ none⟩) later
              exact NotificationScope.isCurrent_iff.mpr ⟨running, rfl⟩
          | bound own current unbound acceptor =>
              exact .bound (fun none => by simp [State.handled, acceptor] at none) later
          | bindFailed own current unbound acceptor accepts nextAttempt notices =>
              have fresh := generation current
              exact .retrying (.failed (fresh ▸ noticed notices))
          | listened own => cases own
          | closed failure => cases failure
          | stopped own => cases own
      | cons first front =>
          obtain ⟨rfl, rfl⟩ := List.cons.inj split
          refine .handler front (back ++ turn.posts) ?_ later
          simp [State.handled, State.scope]
  | retrying retrying => exact .retrying (retrying.append uncancelled)

theorem Hopeful.job {job : Job} {rest : List Job} {verdict : Bool} (hoping : state.Hoping)
    (stopping : ∃ todo others, Stopping state todo others) (queued : state.jobs = job :: rest)
    (dispatcher : state'.dispatcher = (perform state.dispatcher job verdict).1)
    (io : state'.io = state.io)
    (handlers : state'.handlers =
      state.handlers ++ (perform state.dispatcher job verdict).2.posts)
    (jobs : state'.jobs = (perform state.dispatcher job verdict).2.next ++ rest ++
      (perform state.dispatcher job verdict).2.jobs)
    (delayed : state'.delayed =
      state.delayed ++ (perform state.dispatcher job verdict).2.delayed) : state'.Hoping := by
  intro running'
  have scope : state'.scope = _ :=
    (congrArg Dispatcher.notificationScope dispatcher).trans
      (perform_scope state.dispatcher job verdict)
  by_cases starts : job = .start
  · subst starts
    refine .retrying (.bind ?_)
    rw [jobs]
    simp [perform]
  have unstopped : job ≠ .stop := by
    rintro rfl
    rw [scope] at running'
    cases running'
  obtain ⟨todo, others, stopping⟩ := stopping
  have running : state.scope.running = true := by
    rw [scope] at running'
    split at running'
    · exact absurd rfl starts
    · exact absurd rfl unstopped
    · exact running'
    · exact running'
  have unpart : job.isStopPart = false := by
    have split := stopping.jobs.symm.trans queued
    cases todo with
    | nil => exact stopping.others job (by rw [show others = _ from split]; exact List.mem_cons_self)
    | cons part todo =>
        have halted := stopping.halted (List.cons_ne_nil _ _)
        exact absurd (running.symm.trans halted) (by simp)
  have generation : state'.scope.generation = state.scope.generation :=
    (congrArg (·.notificationScope.generation) dispatcher).trans
      (perform_generation state.dispatcher verdict unpart)
  have posts : .stop ∉ (perform state.dispatcher job verdict).2.posts := by
    intro member
    rw [(perform_posts state.dispatcher job verdict _ member).2 rfl] at unpart
    cases unpart
  cases hoping running with
  | bound bound unstopped' =>
      refine .bound (io ▸ bound) ?_
      rw [handlers]
      exact fun member => (List.mem_append.mp member).elim unstopped' posts
  | handler front back listed unstopped' =>
      refine .handler front (back ++ (perform state.dispatcher job verdict).2.posts) ?_ ?_
      · rw [handlers, listed, generation, List.append_assoc, List.cons_append]
      · exact fun member => (List.mem_append.mp member).elim unstopped' posts
  | retrying retrying =>
      rw [queued] at retrying
      rcases retrying.job running verdict unpart with retrying | posted
      · rw [← dispatcher, ← jobs, ← delayed] at retrying
        exact .retrying retrying
      · refine .handler state.handlers [] ?_ List.not_mem_nil
        rw [handlers, posted, generation]

theorem Hopeful.accepts {input : Input} {events : List Event} (hopeful : Hopeful state)
    (accepts : Accepts state input events state') : Hopeful state' := by
  have posted : ∀ {state' : State} {handler : Handler},
      state'.io.acceptor = state.io.acceptor → state'.dispatcher = state.dispatcher →
      state'.delayed = state.delayed → state'.handlers = state.handlers ++ [handler] →
      handler ≠ .stop → state'.jobs = state.jobs → Hopeful state' :=
    fun acceptor dispatcher delayed handlers other jobs =>
      hopeful.of_queued acceptor dispatcher delayed handlers (by simpa using Ne.symm other)
        (jobs.trans (List.append_nil _).symm) nofun
  cases accepts with
  | asyncStart =>
      exact hopeful.of_queued rfl rfl rfl (List.append_nil _).symm nofun rfl (by simp)
  | asyncStop =>
      exact hopeful.of_queued rfl rfl rfl (List.append_nil _).symm nofun rfl (by simp)
  | destroy alive released =>
      cases hopeful with
      | bound bound unstopped => exact .bound bound unstopped
      | handler front back listed unstopped => exact .handler front back listed unstopped
      | retrying retrying => exact .retrying (retrying.filter _)
  | _ => exact posted rfl rfl rfl rfl (by simp) rfl

/-- A cancellation is never delayed. -/
theorem run_uncancelled {options : CommonOptions} {permitted : State → Label → Prop}
    {log : List Event} (run : Run (system options) permitted initial log state) :
    .bindRetryCancelled ∉ state.delayed := by
  induction run with
  | refl => exact nofun
  | @next log state label events state' _ _ step ih =>
      cases Program.step_of_eq_some step with
      | handler queued outcome => exact ih
      | @job job rest queued verdict =>
          have added := (perform_retry state.dispatcher job verdict).2.2.2
          exact fun member => (List.mem_append.mp member).elim ih added
      | delayed idle due => exact fun member => ih (List.mem_of_mem_eraseIdx member)
      | input accepted =>
          rw [(accepts_of_eq_some accepted).jobs.2.1]
          exact ih

theorem step_hoping {options : CommonOptions} {label : Label} {events : List Event}
    (hoping : state.Hoping) (stopping : ∃ todo rest, Stopping state todo rest)
    (uncancelled : .bindRetryCancelled ∉ state.delayed)
    (step : (system options).step? state label = some (state', events)) : state'.Hoping := by
  cases Program.step_of_eq_some step with
  | @handler handler rest queued outcome =>
      intro running
      exact (hoping running).handled
        (Turn.run_acceptorMove options state.scope outcome handler state.io)
        (Turn.run_probeMove options state.scope outcome handler state.io) queued running
  | job queued verdict => exact Hopeful.job hoping stopping queued rfl rfl rfl rfl rfl
  | @delayed index job idle due =>
      intro running
      cases hoping running with
      | bound bound unstopped => exact .bound bound unstopped
      | handler front back listed unstopped => exact .handler front back listed unstopped
      | retrying retrying =>
          rw [idle] at retrying
          refine .retrying (retrying.ready due ?_)
          exact fun same => uncancelled (same ▸ List.mem_of_getElem? due)
  | input accepted =>
      have accepts := accepts_of_eq_some accepted
      intro running
      unfold State.scope at running
      rw [accepts.jobs.1] at running
      exact (hoping running).accepts accepts

theorem run_hoping {options : CommonOptions} {permitted : State → Label → Prop}
    {log : List Event} (run : Run (system options) permitted initial log state) :
    state.Hoping := by
  induction run with
  | refl => exact nofun
  | next run _ step ih => exact step_hoping ih (run_stopping run) (run_uncancelled run) step

end

/-! ## The state at rest -/

/-- At rest, a running server has an acceptor with an accept outstanding, and a probe
in progress has the wait outstanding that will end it. -/
theorem stays_bound (options : CommonOptions) {log : List Event} {state : State}
    (run : Run (system options) (fun _ _ => True) initial log state)
    (running : state.scope.running = true) (noHandler : state.handlers = [])
    (noJob : state.jobs = [])
    (unarmed : .bindRetry state.dispatcher.bindRetryTask.generation ∉ state.delayed) :
    (∃ attempt, state.io.acceptor = some attempt ∧
      ⟨attempt, state.scope.generation⟩ ∈ state.io.accepts) ∧
    ∀ timeout, state.io.socketPathHealthCheckTimeout = some timeout →
      ∃ probe ∈ state.io.timeoutWaits, probe.timeout = timeout ∧
        probe.token = state.scope.generation := by
  have bound := run_bound run
  have settled : ¬ state.StopComing := by
    rintro (queued | later)
    · simp [noHandler] at queued
    · simp [noJob] at later
  have acceptor : state.io.acceptor ≠ none := by
    cases run_hoping run running with
    | bound bound unstopped => exact bound
    | handler front back listed unstopped => simp [noHandler] at listed
    | retrying retrying =>
        rw [noJob] at retrying
        cases retrying with
        | bind queued => cases queued
        | failed queued => cases queued
        | closed queued => cases queued
        | schedule queued => cases queued
        | debounce queued => cases queued
        | debounced front back queued => simp at queued
        | armed queued uncancelled => exact absurd queued unarmed
  constructor
  · obtain ⟨attempt, open'⟩ := Option.ne_none_iff_exists'.mp acceptor
    refine ⟨attempt, open', ?_⟩
    rcases (bound.listening attempt open').resolve_left settled with outstanding | ⟨_, _, queued⟩
    · exact outstanding
    · simp [noHandler] at queued
  · intro timeout same
    obtain ⟨tokens, probe, ofProbe, waiting⟩ := (bound.timed timeout same).resolve_left settled
    rcases waiting with waiting | queued
    · exact ⟨probe, waiting, ofProbe, tokens probe (.inl waiting) ofProbe⟩
    · simp [noHandler] at queued

/-- The first bind fails, the retry succeeds and the first probe is in progress. -/
theorem stays_bound_after_retry :
    ∃ log state, Run (system {}) (fun _ _ => True) initial log state ∧
      state.io.socketPathHealthCheckTimeout = some 1 ∧
      (∃ attempt, state.io.acceptor = some attempt ∧
        ⟨attempt, state.scope.generation⟩ ∈ state.io.accepts) ∧
      ∀ timeout, state.io.socketPathHealthCheckTimeout = some timeout →
        ∃ probe ∈ state.io.timeoutWaits, probe.timeout = timeout ∧
          probe.token = state.scope.generation := by
  let jobs (count : Nat) : List Label := List.replicate count (.job true)
  let labels : List Label :=
    [.input .asyncStart] ++ jobs 2 ++ [.handler (.failed .bind .badDescriptor)] ++ jobs 5 ++
      [.delayed 0] ++ jobs 2 ++ [.handler .succeeded] ++ jobs 5 ++ [.handler .succeeded]
  let view (state : State) : Bool × Option Nat :=
    (state.scope.running && state.handlers.isEmpty && state.jobs.isEmpty &&
      !decide (.bindRetry state.dispatcher.bindRetryTask.generation ∈ state.delayed),
      state.io.socketPathHealthCheckTimeout)
  have computed : (Run.steps? (system {}) (fun _ _ => True) initial labels).map
      (fun result => (view result.1, result.2)) =
      some ((true, some 1), [.bindFailed 1 .badDescriptor, .bound 2]) := by
    decide +kernel
  obtain ⟨state, run, seen⟩ := Run.of_view computed
  simp only [view, Prod.mk.injEq, Bool.and_eq_true, List.isEmpty_iff, Bool.not_eq_true',
    decide_eq_false_iff_not] at seen
  obtain ⟨⟨⟨⟨running, noHandler⟩, noJob⟩, unarmed⟩, probing⟩ := seen
  exact ⟨_, state, run, probing, stays_bound {} run running noHandler noJob unarmed⟩

end UnixDomainStream.Server
