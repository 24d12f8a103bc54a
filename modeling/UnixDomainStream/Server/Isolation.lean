import Mathlib.Tactic.IntervalCases
import UnixDomainStream.Server.Binding
import UnixDomainStream.Server.Closures
import UnixDomainStream.Server.Requests
import UnixDomainStream.Server.Tokens

/-!
# Sessions of a server

A `stop()` cuts a run in two.  The acceptors and peers from before the cut keep a token from
before it, which is stale when the first effects of the `stop()` have been performed; and no
such acceptor is open when a handler with a later token runs, because the handler of the
`stop()` is in front of it.
-/

namespace UnixDomainStream.Server

open Library
open Protocol (Bytes)

/-- What a notification is about. -/
def Notice.origin : Notice → Origin
  | .bound attempt => .acceptor attempt
  | .bindFailed attempt _ => .acceptor attempt
  | .closed attempt => .acceptor attempt
  | .ready id _ => .peer id

theorem Notice.Stamped.origin {rule : Origin → Nat → Prop} {token : Nat} {notice : Notice}
    (stamped : notice.Stamped rule token) : rule notice.origin token := by
  cases notice <;> exact stamped

/-- The acceptor that a notification is about. -/
def Event.attempt? : Event → Option Nat
  | .bound attempt => some attempt
  | .bindFailed attempt _ => some attempt
  | .closed attempt => some attempt
  | _ => none

/-- The peer that a notification or a call of `verify_peer` is about. -/
def Event.peer? : Event → Option Nat
  | .peerConnected id _ => some id
  | .peerClosed id => some id
  | .peerErrorOccurred id _ => some id
  | .received id _ => some id
  | .requestReceived id _ _ => some id
  | .verifyPeer id _ _ => some id
  | _ => none

/-- The event notifies of nothing. -/
def Event.Silent (event : Event) : Prop := event.attempt? = none ∧ event.peer? = none

section

variable {options : CommonOptions} {state state' : State} {label : Label} {events : List Event}

/-! ## Counters that advance -/

theorem perform_generation_le (dispatcher : Dispatcher) (job : Job) (verdict : Bool) :
    dispatcher.notificationScope.generation ≤
      (perform dispatcher job verdict).1.notificationScope.generation := by
  rw [perform_scope]
  cases job <;>
    simp [NotificationScope.start, NotificationScope.halt, NotificationScope.invalidate]

theorem step_generation_le (step : (system options).step? state label = some (state', events)) :
    state.scope.generation ≤ state'.scope.generation := by
  cases Program.step_of_eq_some step with
  | handler queued outcome => exact Nat.le_refl _
  | job queued verdict => exact perform_generation_le _ _ verdict
  | delayed idle due => exact Nat.le_refl _
  | input accepted =>
      rw [State.scope, State.scope, (accepts_of_eq_some accepted).jobs.1]

namespace Turn

theorem AcceptorMove.attempts {scope : NotificationScope} {handler : Handler} {io : Io}
    {after : Turn} (move : AcceptorMove scope handler io after) :
    io.nextAttempt ≤ after.io.nextAttempt := by
  cases move with
  | bound own current unbound acceptor accepts nextAttempt => omega
  | bindFailed own current unbound acceptor accepts nextAttempt => omega
  | _ => omega

/-- The acceptor after a handler is the one before it, or a new one. -/
theorem AcceptorMove.acceptor {scope : NotificationScope} {handler : Handler} {io : Io}
    {after : Turn} (move : AcceptorMove scope handler io after) {attempt : Nat}
    (bound : after.io.acceptor = some attempt) :
    handler ≠ .stop ∧ (io.acceptor = some attempt ∨ attempt = io.nextAttempt + 1) := by
  cases move with
  | kept inert acceptor accepts nextAttempt notices =>
      refine ⟨?_, .inl (acceptor ▸ bound)⟩
      rintro rfl
      exact inert trivial
  | bound own current unbound acceptor accepts nextAttempt notices =>
      rw [acceptor] at bound
      cases bound
      refine ⟨?_, .inr rfl⟩
      rintro rfl
      cases own
  | bindFailed own current unbound acceptor =>
      rw [acceptor] at bound
      cases bound
  | listened own current acceptor accepts nextAttempt notices =>
      refine ⟨?_, .inl (acceptor ▸ bound)⟩
      rintro rfl
      cases own
  | closed failure acceptor =>
      rw [acceptor] at bound
      cases bound
  | stopped own acceptor =>
      rw [acceptor] at bound
      cases bound

/-- A piece of a handler that notifies of nothing; ids are given out in ascending order. -/
structure Quiet (before after : Turn) : Prop where
  ids : before.io.nextPeerId ≤ after.io.nextPeerId
  events : Appends Event.Silent before.events after.events

variable {before after : Turn}

namespace Quiet

theorem of_same (ids : after.io.nextPeerId = before.io.nextPeerId)
    (events : after.events = before.events) : Quiet before after := by
  constructor
  · exact ids.ge
  · rw [events]
    exact .refl _

theorem trans {first second third : Turn} (left : Quiet first second)
    (right : Quiet second third) : Quiet first third :=
  ⟨left.ids.trans right.ids, left.events.trans right.events⟩

end Quiet

theorem Internal.quiet (internal : Internal before after) : Quiet before after := by
  constructor
  · exact internal.nextPeerId.ge
  · apply internal.events.mono
    intro event own
    cases event with
    | frameRead ref body => exact ⟨rfl, rfl⟩
    | _ => cases own

theorem PeerPiece.quiet {options : CommonOptions} {scope : NotificationScope}
    {handler : Handler} {start : Turn}
    (piece : PeerPiece options scope handler start before after) : Quiet before after := by
  cases piece with
  | send own listed =>
      refine ⟨Nat.le_refl _, .single ?_ _⟩
      exact ⟨rfl, rfl⟩
  | speak own =>
      unfold runPeer
      split
      · exact .of_same rfl rfl
      · refine ⟨Nat.le_refl _, .append (fun event listed => ?_) _⟩
        unfold PeerRef.framesRead at listed
        split at listed
        · rw [List.mem_singleton.mp listed]
          exact ⟨rfl, rfl⟩
        · cases listed
  | create own current =>
      refine ⟨Nat.le_succ _, .single ?_ _⟩
      exact ⟨rfl, rfl⟩
  | _ => exact .of_same rfl rfl

theorem run_quiet (options : CommonOptions) (scope : NotificationScope) (outcome : BindOutcome)
    (handler : Handler) (turn : Turn) :
    Quiet turn (turn.run options scope outcome handler) := by
  refine (run_pieces options scope outcome handler turn).effect (fun _ => .of_same rfl rfl)
    .trans ?_
  intro before after piece
  rcases piece.sort with internal | piece
  · exact internal.quiet
  · exact piece.quiet

end Turn

theorem Accepts.counters {input : Input} (accepts : Accepts state input events state') :
    state'.io.nextAttempt = state.io.nextAttempt ∧ state'.io.nextPeerId = state.io.nextPeerId := by
  cases accepts <;> exact ⟨rfl, rfl⟩

theorem step_counters_le (step : (system options).step? state label = some (state', events)) :
    state.io.nextAttempt ≤ state'.io.nextAttempt ∧ state.io.nextPeerId ≤ state'.io.nextPeerId := by
  cases Program.step_of_eq_some step with
  | @handler handler rest queued outcome =>
      have move := Turn.run_acceptorMove options state.scope outcome handler state.io
      have quiet := Turn.run_quiet options state.scope outcome handler { io := state.io }
      exact ⟨move.attempts, quiet.ids⟩
  | job queued verdict => exact ⟨Nat.le_refl _, Nat.le_refl _⟩
  | delayed idle due => exact ⟨Nat.le_refl _, Nat.le_refl _⟩
  | input accepted =>
      obtain ⟨attempts, ids⟩ := (accepts_of_eq_some accepted).counters
      exact ⟨attempts.ge, ids.ge⟩

/-! ## Notifications -/

/-- The token is current. -/
def Dispatcher.Permits (dispatcher : Dispatcher) (rule : Origin → Nat → Prop) (origin : Origin) :
    Prop :=
  ∃ token, rule origin token ∧ dispatcher.notificationScope.isCurrent token = true

/-- A job notifies of an acceptor only with the current token, and of a peer only with the
current token or while the peer is exposed. -/
theorem perform_permitted {rule : Origin → Nat → Prop} {job : Job} (stamped : job.Stamped rule)
    (dispatcher : Dispatcher) (verdict : Bool) :
    ∀ event ∈ (perform dispatcher job verdict).2.events,
      (∀ attempt, event.attempt? = some attempt → dispatcher.Permits rule (.acceptor attempt)) ∧
      ∀ id, event.peer? = some id →
        id ∈ dispatcher.exposedPeerIds ∨ dispatcher.Permits rule (.peer id) := by
  have exposed : ∀ (id : Nat) (event : Event), event.attempt? = none → event.peer? = some id →
      ∀ other ∈ (ifExposed dispatcher id event).2.events,
        (∀ attempt, other.attempt? = some attempt →
          dispatcher.Permits rule (.acceptor attempt)) ∧
        ∀ owner, other.peer? = some owner →
          owner ∈ dispatcher.exposedPeerIds ∨ dispatcher.Permits rule (.peer owner) := by
    intro id event unbound about other listed
    unfold ifExposed at listed
    dsimp only at listed
    split at listed
    case isTrue member =>
      rw [List.mem_singleton.mp listed, unbound, about]
      refine ⟨by simp, fun owner same => .inl ?_⟩
      cases same
      exact member
    case isFalse => cases listed
  cases job with
  | signal slots sent =>
      cases slots with
      | accepted => cases sent <;> simp [perform, slot, acceptedSlot]
      | healthCheck probe =>
          cases current : dispatcher.notificationScope.isCurrent probe.token <;> cases sent <;>
            simp [perform, slot, healthCheckSlot, current]
  | notify token notice =>
      cases current : dispatcher.notificationScope.isCurrent token with
      | false => simp [perform, current]
      | true =>
          have permitted : dispatcher.Permits rule notice.origin :=
            ⟨token, Notice.Stamped.origin stamped, current⟩
          cases notice with
          | ready id credentials =>
              replace permitted : dispatcher.Permits rule (.peer id) := permitted
              cases verdict <;>
                simp [perform, current, notify, Event.attempt?, Event.peer?, permitted]
          | _ => simpa [perform, current, notify, Event.attempt?, Event.peer?, Notice.origin]
              using permitted
  | startHealthCheckTimer =>
      cases running : dispatcher.notificationScope.running <;> simp [perform, running]
  | debounceBindRetry =>
      cases running : dispatcher.notificationScope.running <;> simp [perform, running]
  | bindRetry generation =>
      by_cases due : dispatcher.bindRetryTask.generation = generation ∧
        dispatcher.notificationScope.running = true <;> simp [perform, due]
  | healthCheckTimerCall functionId =>
      by_cases due : dispatcher.socketPathHealthCheckTimer.currentFunctionId = functionId <;>
        simp [perform, due]
  | received id buffer => exact exposed id _ rfl rfl
  | requestReceived id requestId buffer => exact exposed id _ rfl rfl
  | peerErrorOccurred id errorCode => exact exposed id _ rfl rfl
  | peerClosed id =>
      by_cases member : id ∈ dispatcher.exposedPeerIds <;>
        simp [perform, member, Event.attempt?, Event.peer?]
  | requestCallback call errorCode data => simp [perform, Event.attempt?, Event.peer?]
  | _ => simp [perform]

/-- A peer is exposed with the current token. -/
theorem perform_exposes {rule : Origin → Nat → Prop} {job : Job} (stamped : job.Stamped rule)
    (dispatcher : Dispatcher) (verdict : Bool) :
    ∀ id ∈ (perform dispatcher job verdict).1.exposedPeerIds,
      id ∈ dispatcher.exposedPeerIds ∨ dispatcher.Permits rule (.peer id) := by
  intro id member
  cases job with
  | notify token notice =>
      cases current : dispatcher.notificationScope.isCurrent token with
      | false => exact .inl (by simpa [perform, current] using member)
      | true =>
          cases notice with
          | ready other credentials =>
              cases verdict with
              | true =>
                  simp only [perform, current, if_true, notify, Finset.mem_insert] at member
                  rcases member with rfl | old
                  · exact .inr ⟨token, stamped, current⟩
                  · exact .inl old
              | false => exact .inl (by simpa [perform, current, notify] using member)
          | _ => exact .inl (by simpa [perform, current, notify] using member)
  | peerClosed other =>
      simp only [perform, Finset.mem_erase] at member
      exact .inl member.2
  | clearExposedPeerIds => simp [perform] at member
  | startHealthCheckTimer =>
      cases running : dispatcher.notificationScope.running <;>
        exact .inl (by simpa [perform, running] using member)
  | debounceBindRetry =>
      cases running : dispatcher.notificationScope.running <;>
        exact .inl (by simpa [perform, running] using member)
  | bindRetry generation =>
      by_cases due : dispatcher.bindRetryTask.generation = generation ∧
        dispatcher.notificationScope.running = true <;>
          exact .inl (by simpa [perform, due] using member)
  | healthCheckTimerCall functionId =>
      by_cases due : dispatcher.socketPathHealthCheckTimer.currentFunctionId = functionId <;>
        exact .inl (by simpa [perform, due] using member)
  | _ => exact .inl member

/-! ## Tokens and generations -/

/-- Every token was captured at a generation that has been reached. -/
def State.Dated (state : State) : Prop := state.Stamped fun _ token => token ≤ state.scope.generation

theorem State.Dated.step (dated : state.Dated)
    (step : (system options).step? state label = some (state', events)) : state'.Dated := by
  have stamped := step_stamped dated (fun handler outcome _ _ => ?_) (fun _ _ _ _ _ => ?_) step
  · exact stamped.mono fun _ token captured => captured.trans (step_generation_le step)
  · constructor
    · exact fun token _ current _ => (NotificationScope.isCurrent_iff.mp current).2.ge
    · intro accept result _ current
      have same := (NotificationScope.isCurrent_iff.mp current).2.ge
      exact ⟨same, fun _ _ => same⟩
    · exact fun token _ current _ _ => (NotificationScope.isCurrent_iff.mp current).2.ge
  · exact Nat.le_refl _

/-- The acceptor or the peer is none of those so far. -/
def State.New (state : State) : Origin → Prop
  | .session => False
  | .acceptor attempt => state.io.nextAttempt < attempt
  | .peer id => state.io.nextPeerId < id

/-- Tokens are kept for acceptors and peers that have been numbered. -/
structure State.Numbered (state : State) : Prop where
  stamped : state.Stamped fun origin _ => ¬ state.New origin
  acceptor : ∀ attempt, state.io.acceptor = some attempt → attempt ≤ state.io.nextAttempt

/-- What is new after a step was new before it. -/
theorem New.before (step : (system options).step? state label = some (state', events))
    {origin : Origin} (new : state'.New origin) : state.New origin := by
  obtain ⟨attempts, ids⟩ := step_counters_le step
  cases origin with
  | session => exact new
  | acceptor attempt => exact attempts.trans_lt new
  | peer id => exact ids.trans_lt new

theorem Turn.handleAcceptedSocket_nextPeerId (scope : NotificationScope)
    (credentials : PeerCredentials) {token : Nat} (turn : Turn)
    (current : scope.isCurrent token = true) :
    (turn.handleAcceptedSocket scope credentials token).io.nextPeerId =
      turn.io.nextPeerId + 1 := by
  unfold handleAcceptedSocket
  rw [if_neg (by simp [current])]
  exact (accept_pieces scope token _).internal.nextPeerId

theorem Turn.onBind_nextAttempt {scope : NotificationScope} {token : Nat} {io : Io}
    {after : Turn} (move : AcceptorMove scope (.bind token) io after)
    (current : scope.isCurrent token = true) (free : io.acceptor = none) :
    after.io.nextAttempt = io.nextAttempt + 1 := by
  cases move with
  | kept inert => exact absurd ⟨current, free⟩ inert
  | bound own current unbound acceptor accepts nextAttempt => exact nextAttempt
  | bindFailed own current unbound acceptor accepts nextAttempt => exact nextAttempt
  | listened own => cases own
  | closed failure => cases failure
  | stopped own => cases own

theorem State.Numbered.step (numbered : state.Numbered)
    (step : (system options).step? state label = some (state', events)) : state'.Numbered := by
  have attempts := (step_counters_le step).1
  have bounded : ∀ attempt, state.io.acceptor = some attempt → ¬ state'.New (.acceptor attempt) :=
    fun attempt bound => Nat.not_lt.mpr ((numbered.acceptor attempt bound).trans attempts)
  constructor
  · have stamped : state.Stamped fun origin _ => ¬ state'.New origin := by
      refine State.Stamped.mono ?_ numbered.stamped
      intro origin _ old new
      exact old (New.before step new)
    refine step_stamped stamped (fun handler outcome same queued => ?_) (fun _ _ _ _ _ => id) step
    subst same
    cases Program.step_of_eq_some step with
    | @handler other rest listed _ =>
        rw [listed, List.head?_cons, Option.some.injEq] at queued
        subst queued
        constructor
        · rintro token rfl current free
          have move := Turn.run_acceptorMove options state.scope outcome (.bind token) state.io
          exact Nat.not_lt.mpr (Turn.onBind_nextAttempt move current free).ge
        · rintro accept credentials rfl current
          refine ⟨Nat.not_lt.mpr ?_, bounded⟩
          have accepted := Turn.handleAcceptedSocket_nextPeerId state.scope credentials
            { io := state.io } current
          refine accepted.ge.trans (Nat.le_of_eq ?_)
          simp [program, handle, Turn.run, Turn.onAccept, current]
        · exact fun token _ _ => bounded
  · intro attempt bound
    cases Program.step_of_eq_some step with
    | @handler handler rest queued outcome =>
        cases Turn.run_acceptorMove options state.scope outcome handler state.io with
        | kept inert acceptor =>
            exact (numbered.acceptor attempt (acceptor.symm.trans bound)).trans attempts
        | bound own current unbound acceptor accepts nextAttempt =>
            cases acceptor.symm.trans bound
            exact nextAttempt.ge
        | bindFailed own current unbound acceptor => cases acceptor.symm.trans bound
        | listened own current acceptor =>
            exact (numbered.acceptor attempt (acceptor.symm.trans bound)).trans attempts
        | closed failure acceptor => cases acceptor.symm.trans bound
        | stopped own acceptor => cases acceptor.symm.trans bound
    | job queued verdict => exact numbered.acceptor attempt bound
    | delayed idle due => exact numbered.acceptor attempt bound
    | input accepted =>
        have kept := (accepts_of_eq_some accepted).acceptor
        exact (numbered.acceptor attempt (kept.symm.trans bound)).trans attempts

/-- The effects from the `done`-th on are still to be performed, at the head of the queue. -/
def State.StopsFrom (state : State) (done : Nat) : Prop :=
  ∃ rest, state.jobs = stopTail.drop done ++ rest

theorem stopTail_isOf (ref : PeerRef) : ∀ job ∈ stopTail, job.isOf ref = false := by
  intro job part
  simp only [stopTail, List.mem_cons, List.not_mem_nil, or_false] at part
  rcases part with rfl | rfl | rfl | rfl | rfl <;> rfl

/-- What an effect does to the members of the dispatcher thread. -/
def Dispatcher.afterPart (dispatcher : Dispatcher) : Nat → Dispatcher
  | 0 => { dispatcher with notificationScope := dispatcher.notificationScope.invalidate }
  | 3 => { dispatcher with exposedPeerIds := ∅ }
  | _ => dispatcher

/-- The next effect is performed, or the jobs in front of the queue stay there. -/
inductive State.StopMove (state state' : State) (done : Nat) : Prop where
  | kept (stops : state'.StopsFrom done) (dispatcher : state'.dispatcher = state.dispatcher)
  | next (less : done < 4) (stops : state'.StopsFrom (done + 1))
      (handlers : state'.handlers = state.handlers)
      (dispatcher : state'.dispatcher = state.dispatcher.afterPart done)
  | last (own : done = 4) (handlers : state'.handlers = state.handlers ++ [.stop])
      (dispatcher : state'.dispatcher = state.dispatcher)

namespace State.StopsFrom

variable {done : Nat}

theorem head (stops : state.StopsFrom done) (pending : done < 5) {job : Job}
    (front : state.jobs.head? = some job) : job.isStopPart = true := by
  obtain ⟨rest, jobs⟩ := stops
  rw [jobs] at front
  interval_cases done <;> cases front <;> rfl

theorem accepts {input : Input} (stops : state.StopsFrom done)
    (accepts : Accepts state input events state') : state'.StopsFrom done := by
  obtain ⟨rest, jobs⟩ := stops
  rcases accepts.jobs.2.2 with same | same | same | ⟨ref, same⟩
  · exact ⟨rest, same.trans jobs⟩
  · exact ⟨rest ++ [.start], by rw [same, jobs, List.append_assoc]⟩
  · exact ⟨rest ++ [.stop], by rw [same, jobs, List.append_assoc]⟩
  · refine ⟨rest.filter fun job => !job.isOf ref, ?_⟩
    have kept : (stopTail.drop done).filter (fun job => !job.isOf ref) = stopTail.drop done := by
      apply List.filter_eq_self.mpr
      intro job member
      simp [stopTail_isOf ref job (List.mem_of_mem_drop member)]
    rw [same, jobs, List.filter_append, kept]

theorem step (stops : state.StopsFrom done) (pending : done < 5)
    (step : (system options).step? state label = some (state', events)) :
    state.StopMove state' done := by
  cases Program.step_of_eq_some step with
  | handler queued outcome =>
      obtain ⟨rest, jobs⟩ := stops
      exact .kept ⟨_, (congrArg (· ++ _) jobs).trans (List.append_assoc ..)⟩ rfl
  | @job job more queued verdict =>
      obtain ⟨rest, jobs⟩ := stops
      rw [queued] at jobs
      interval_cases done <;> obtain ⟨rfl, rfl⟩ := List.cons.inj jobs
      · exact .next (by decide) ⟨rest, List.append_nil _⟩ (List.append_nil _) rfl
      · exact .next (by decide) ⟨rest ++ _, rfl⟩ (List.append_nil _) rfl
      · exact .next (by decide) ⟨rest ++ _, rfl⟩ (List.append_nil _) rfl
      · exact .next (by decide) ⟨rest, List.append_nil _⟩ (List.append_nil _) rfl
      · exact .last rfl rfl rfl
  | delayed idle due =>
      obtain ⟨rest, jobs⟩ := stops
      rw [idle] at jobs
      interval_cases done <;> cases jobs
  | input accepted =>
      have accepts := accepts_of_eq_some accepted
      exact .kept (stops.accepts accepts) accepts.jobs.1

/-- The first effect of a `stop()` is performed. -/
theorem begun {verdict : Bool} (front : state.jobs.head? = some .stop)
    (step : (system options).step? state (.job verdict) = some (state', events)) :
    state'.StopsFrom 0 ∧ state'.dispatcher =
      { state.dispatcher with notificationScope := state.dispatcher.notificationScope.halt } ∧
      state'.io = state.io ∧ state'.handlers = state.handlers := by
  cases Program.step_of_eq_some step with
  | @job job rest queued _ =>
      rw [queued, List.head?_cons, Option.some.injEq] at front
      subst front
      exact ⟨⟨rest, List.append_nil _⟩, rfl, rfl, List.append_nil _⟩

end State.StopsFrom

/-- The environment notifies of nothing. -/
theorem Accepts.silent {input : Input} (accepts : Accepts state input events state') :
    ∀ event ∈ events, event.Silent := by
  intro event listed
  cases accepts with
  | asyncRequest call id data =>
      rw [List.mem_singleton.mp listed]
      exact ⟨rfl, rfl⟩
  | _ => cases listed

/-- The environment adds to the handlers. -/
theorem Accepts.posts {input : Input} (accepts : Accepts state input events state') :
    Appends (fun handler => ∀ call, handler.requests call = true →
      events.countP (Event.issues call) ≠ 0) state.handlers state'.handlers := by
  have plain : ∀ {handler : Handler}, (∀ call, handler.requests call = false) →
      Appends (fun handler => ∀ call, handler.requests call = true →
        events.countP (Event.issues call) ≠ 0) state.handlers (state.handlers ++ [handler]) := by
    intro handler other
    apply Appends.single
    intro call requests
    rw [other call] at requests
    cases requests
  cases accepts with
  | asyncStart => exact .refl _
  | asyncStop => exact .refl _
  | destroy alive released => exact .refl _
  | asyncRequest call id data =>
      apply Appends.single
      intro other requests
      simp [Event.issues, show call = other by simpa [Handler.requests] using requests]
  | _ => exact plain fun call => rfl

/-- The environment completes no request. -/
theorem Accepts.pendingOf {input : Input} (accepts : Accepts state input events state')
    (call : Nat) : state'.io.pendingOf call = state.io.pendingOf call := by
  cases accepts with
  | requestExpires expires =>
      have pending := (RequestManager.expire?_eq_some expires).1
      simp [Io.pendingOf, post, pending]
  | _ => rfl

/-! ## Beyond a cut -/

/-- The acceptor or the peer is from before the cut. -/
def State.Old (cut : State) : Origin → Prop
  | .session => False
  | .acceptor attempt => attempt ≤ cut.io.nextAttempt
  | .peer id => id ≤ cut.io.nextPeerId

/-- What is from before the cut has a token from before it. -/
def State.rule (cut : State) (origin : Origin) (token : Nat) : Prop :=
  cut.Old origin → token ≤ cut.scope.generation

/-- The handler was queued with a token from before the cut, if any. -/
def Handler.Early (cut : State) (handler : Handler) : Prop :=
  handler.Stamped fun _ token => token ≤ cut.scope.generation

/-- The acceptor is a new one, or the handler that closes it comes before any new token. -/
def State.Fenced (cut state : State) : Prop :=
  (∃ front back, state.handlers = front ++ .stop :: back ∧ ∀ handler ∈ front, handler.Early cut) ∨
    ∀ attempt, state.io.acceptor = some attempt → cut.io.nextAttempt < attempt

/-- The `stop()` is under way. -/
structure State.Halting (cut state : State) (done : Nat) : Prop where
  pending : done < 5
  stops : state.StopsFrom done
  halted : state.scope.running = false
  early : state.Stamped fun _ token => token ≤ cut.scope.generation
  begun : cut.scope.generation ≤ state.scope.generation
  invalidated : done ≠ 0 → cut.scope.generation < state.scope.generation
  hidden : done ≤ 3 ∨ state.dispatcher.exposedPeerIds = ∅

/-- All effects of the `stop()` have been performed. -/
structure State.Halted (cut state : State) : Prop where
  stale : cut.scope.generation < state.scope.generation
  hidden : ∀ id ∈ state.dispatcher.exposedPeerIds, cut.io.nextPeerId < id
  fenced : cut.Fenced state

structure State.Beyond (cut state : State) : Prop where
  attempts : cut.io.nextAttempt ≤ state.io.nextAttempt
  ids : cut.io.nextPeerId ≤ state.io.nextPeerId
  stamped : state.Stamped cut.rule
  phase : (∃ done, cut.Halting state done) ∨ cut.Halted state

variable {cut : State}

theorem stopPart_events (dispatcher : Dispatcher) {job : Job} {verdict : Bool}
    (part : job.isStopPart = true) : (perform dispatcher job verdict).2.events = [] := by
  cases job <;> first | rfl | cases part

theorem not_current_of_halted {token : Nat} (halted : state.scope.running = false) :
    ¬ state.scope.isCurrent token = true := by
  intro current
  have running := (NotificationScope.isCurrent_iff.mp current).1
  rw [halted] at running
  cases running

namespace State.Halting

variable {done : Nat}

theorem step (halting : cut.Halting state done)
    (step : (system options).step? state label = some (state', events)) :
    (∃ done', cut.Halting state' done') ∨ cut.Halted state' := by
  have early : state'.Stamped fun _ token => token ≤ cut.scope.generation := by
    refine step_stamped halting.early (fun handler outcome _ _ => ?_) ?_ step
    · constructor
      · exact fun token _ current => absurd current (not_current_of_halted halting.halted)
      · exact fun accept result _ current => absurd current (not_current_of_halted halting.halted)
      · exact fun token _ current => absurd current (not_current_of_halted halting.halted)
    · intro job verdict _ front captures
      have part := halting.stops.head halting.pending front
      rcases captures with rfl | rfl <;> cases part
  cases halting.stops.step halting.pending step with
  | kept stops dispatcher =>
      have scope : state'.scope = state.scope := congrArg Dispatcher.notificationScope dispatcher
      refine .inl ⟨done, halting.pending, stops, ?_, early, ?_, ?_, ?_⟩
      · rw [scope]
        exact halting.halted
      · rw [scope]
        exact halting.begun
      · rw [scope]
        exact halting.invalidated
      · rw [dispatcher]
        exact halting.hidden
  | next less stops handlers dispatcher =>
      have halted := halting.halted
      have begun := halting.begun
      have invalidated := halting.invalidated
      have scope : state'.scope = (state.dispatcher.afterPart done).notificationScope :=
        congrArg Dispatcher.notificationScope dispatcher
      refine .inl ⟨done + 1, by omega, stops, ?_, early, ?_, ?_, ?_⟩
      · rw [scope]
        interval_cases done <;> exact halted
      · rw [scope]
        interval_cases done <;> first | exact begun | exact Nat.le_succ_of_le begun
      · intro _
        rw [scope]
        interval_cases done
        · exact Nat.lt_succ_of_le begun
        · exact invalidated (by decide)
        · exact invalidated (by decide)
        · exact invalidated (by decide)
      · rw [dispatcher]
        interval_cases done
        · exact .inl (by decide)
        · exact .inl (by decide)
        · exact .inl (by decide)
        · exact .inr rfl
  | last own handlers dispatcher =>
      subst own
      have scope : state'.scope = state.scope := congrArg Dispatcher.notificationScope dispatcher
      have hidden : state.dispatcher.exposedPeerIds = ∅ := by simpa using halting.hidden
      refine .inr ⟨?_, ?_, .inl ⟨state.handlers, [], handlers, halting.early.queued.handlers⟩⟩
      · rw [scope]
        exact halting.invalidated (by decide)
      · rw [dispatcher, hidden]
        simp

/-- While the `stop()` lasts, nothing is notified. -/
theorem silent (halting : cut.Halting state done)
    (step : (system options).step? state label = some (state', events)) :
    ∀ event ∈ events, event.Silent := by
  cases Program.step_of_eq_some step with
  | @handler handler rest queued outcome =>
      have quiet := Turn.run_quiet options state.scope outcome handler { io := state.io }
      exact quiet.events.forall_mem (by simp)
  | @job job more queued verdict =>
      have part := halting.stops.head halting.pending (by rw [queued]; rfl)
      intro event listed
      change event ∈ (perform state.dispatcher job verdict).2.events at listed
      rw [stopPart_events state.dispatcher part] at listed
      cases listed
  | delayed idle due => simp
  | input accepted => exact (accepts_of_eq_some accepted).silent

end State.Halting

namespace State.Fenced

/-- A handler with a later token does not meet an acceptor from before the cut. -/
theorem early (fenced : cut.Fenced state) {handler : Handler}
    (queued : state.handlers.head? = some handler) (other : handler ≠ .stop) {attempt : Nat}
    (bound : state.io.acceptor = some attempt) (old : attempt ≤ cut.io.nextAttempt) :
    handler.Early cut := by
  rcases fenced with ⟨front, back, handlers, early⟩ | passed
  · rw [handlers] at queued
    cases front with
    | nil =>
        cases queued
        exact absurd rfl other
    | cons first front =>
        cases queued
        exact early handler List.mem_cons_self
  · exact absurd (passed attempt bound) (Nat.not_lt.mpr old)

theorem step (fenced : cut.Fenced state) (attempts : cut.io.nextAttempt ≤ state.io.nextAttempt)
    (step : (system options).step? state label = some (state', events)) : cut.Fenced state' := by
  have appended : ∀ {more : List Handler}, state'.handlers = state.handlers ++ more →
      state'.io.acceptor = state.io.acceptor → cut.Fenced state' := by
    intro more posts acceptor
    rcases fenced with ⟨front, back, handlers, early⟩ | passed
    · refine .inl ⟨front, back ++ more, ?_, early⟩
      rw [posts, handlers, List.append_assoc, List.cons_append]
    · exact .inr (acceptor ▸ passed)
  cases Program.step_of_eq_some step with
  | @handler handler rest queued outcome =>
      have move := Turn.run_acceptorMove options state.scope outcome handler state.io
      rcases fenced with ⟨front, back, handlers, early⟩ | passed
      · rw [queued] at handlers
        cases front with
        | nil =>
            obtain ⟨rfl, rfl⟩ := List.cons.inj handlers
            refine .inr fun attempt bound => ?_
            exact absurd rfl (move.acceptor bound).1
        | cons first front =>
            obtain ⟨rfl, rfl⟩ := List.cons.inj handlers
            have rest : ∀ other ∈ front, other.Early cut := fun other member =>
              early other (List.mem_cons_of_mem handler member)
            exact .inl ⟨front, _, List.append_assoc .., rest⟩
      · refine .inr fun attempt bound => ?_
        rcases (move.acceptor bound).2 with old | new
        · exact passed attempt old
        · omega
  | job queued verdict => exact appended rfl rfl
  | delayed idle due => exact appended (List.append_nil _).symm rfl
  | input accepted =>
      have accepts := accepts_of_eq_some accepted
      obtain ⟨more, posts, _⟩ := accepts.posts
      exact appended posts accepts.acceptor

end State.Fenced

/-- A current token is none from before the cut. -/
theorem State.Halted.permits (halted : cut.Halted state) {origin : Origin}
    (permits : state.dispatcher.Permits cut.rule origin) : ¬ cut.Old origin := by
  intro old
  obtain ⟨token, captured, current⟩ := permits
  have same : state.scope.generation = token := (NotificationScope.isCurrent_iff.mp current).2
  have before := captured old
  have stale := halted.stale
  omega

namespace State.Beyond

theorem renews (beyond : cut.Beyond state) {handler : Handler}
    (queued : state.handlers.head? = some handler) :
    Turn.Renews state.scope cut.rule state.io handler := by
  have attempts := beyond.attempts
  have ids := beyond.ids
  have early : ∀ {token : Nat}, state.scope.isCurrent token = true → handler ≠ .stop →
      ∀ attempt, state.io.acceptor = some attempt → attempt ≤ cut.io.nextAttempt →
        handler.Early cut := by
    intro token current other attempt bound old
    rcases beyond.phase with ⟨done, halting⟩ | halted
    · exact absurd current (not_current_of_halted halting.halted)
    · exact halted.fenced.early queued other bound old
  constructor
  · intro token _ _ _ old
    have old : state.io.nextAttempt + 1 ≤ cut.io.nextAttempt := old
    omega
  · rintro accept result rfl current
    refine ⟨fun old => ?_, fun attempt bound old => early current (by simp) attempt bound old⟩
    have old : state.io.nextPeerId + 1 ≤ cut.io.nextPeerId := old
    omega
  · rintro token rfl current attempt bound old
    exact early current (by simp) attempt bound old

theorem step_halted (beyond : cut.Beyond state) (halted : cut.Halted state)
    (step : (system options).step? state label = some (state', events)) : cut.Halted state' := by
  refine ⟨halted.stale.trans_le (step_generation_le step), ?_,
    halted.fenced.step beyond.attempts step⟩
  cases Program.step_of_eq_some step with
  | handler queued outcome => exact halted.hidden
  | @job job rest queued verdict =>
      intro id member
      have stamped := beyond.stamped.queued.jobs job (by simp [queued])
      rcases perform_exposes stamped state.dispatcher verdict id member with kept | permitted
      · exact halted.hidden id kept
      · exact Nat.lt_of_not_le (halted.permits permitted)
  | delayed idle due => exact halted.hidden
  | input accepted =>
      rw [(accepts_of_eq_some accepted).jobs.1]
      exact halted.hidden

theorem step (beyond : cut.Beyond state)
    (step : (system options).step? state label = some (state', events)) : cut.Beyond state' := by
  obtain ⟨attempts, ids⟩ := step_counters_le step
  refine ⟨beyond.attempts.trans attempts, beyond.ids.trans ids, ?_, ?_⟩
  · refine step_stamped beyond.stamped (fun handler outcome _ queued => beyond.renews queued) ?_
      step
    exact fun _ _ _ _ _ old => absurd old id
  · rcases beyond.phase with ⟨done, halting⟩ | halted
    · exact halting.step step
    · exact .inr (beyond.step_halted halted step)

/-- Nothing is notified of an acceptor or a peer from before the cut. -/
theorem notifies (beyond : cut.Beyond state)
    (step : (system options).step? state label = some (state', events)) :
    ∀ event ∈ events, (∀ attempt, event.attempt? = some attempt → cut.io.nextAttempt < attempt) ∧
      ∀ id, event.peer? = some id → cut.io.nextPeerId < id := by
  have silent : (∀ event ∈ events, event.Silent) → ∀ event ∈ events,
      (∀ attempt, event.attempt? = some attempt → cut.io.nextAttempt < attempt) ∧
        ∀ id, event.peer? = some id → cut.io.nextPeerId < id := by
    intro silent event listed
    obtain ⟨unbound, about⟩ := silent event listed
    simp [unbound, about]
  rcases beyond.phase with ⟨done, halting⟩ | halted
  · exact silent (halting.silent step)
  · cases Program.step_of_eq_some step with
    | @handler handler rest queued outcome =>
        have quiet := Turn.run_quiet options state.scope outcome handler { io := state.io }
        exact silent (quiet.events.forall_mem (by simp))
    | @job job rest queued verdict =>
        intro event listed
        have stamped := beyond.stamped.queued.jobs job (by simp [queued])
        obtain ⟨acceptor, peer⟩ := perform_permitted stamped state.dispatcher verdict event listed
        constructor
        · intro attempt about
          exact Nat.lt_of_not_le (halted.permits (acceptor attempt about))
        · intro id about
          rcases peer id about with exposed | permitted
          · exact halted.hidden id exposed
          · exact Nat.lt_of_not_le (halted.permits permitted)
    | delayed idle due => simp
    | input accepted => exact silent (accepts_of_eq_some accepted).silent

end State.Beyond

/-- The first effect of a `stop()` cuts the run. -/
theorem State.Dated.begins {verdict : Bool} (dated : cut.Dated) (front : cut.jobs.head? = some .stop)
    (step : (system options).step? cut (.job verdict) = some (state, events)) :
    cut.Beyond state := by
  obtain ⟨stops, dispatcher, io, handlers⟩ := State.StopsFrom.begun front step
  have scope : state.scope = cut.scope.halt := congrArg Dispatcher.notificationScope dispatcher
  have early : state.Stamped fun _ token => token ≤ cut.scope.generation := by
    refine step_stamped dated (fun handler outcome other _ => by cases other) ?_ step
    exact fun _ _ _ _ _ => Nat.le_refl _
  have captured : state.Stamped cut.rule := by
    refine State.Stamped.mono ?_ early
    intro origin token before _
    exact before
  refine ⟨io ▸ Nat.le_refl _, io ▸ Nat.le_refl _, captured, .inl ⟨0, by decide, stops, ?_, early,
    ?_, fun other => absurd rfl other, .inl (by decide)⟩⟩
  · rw [scope]
    rfl
  · rw [scope]
    exact Nat.le_refl _

theorem run_beyond {permitted : State → Label → Prop} {start : State} {log : List Event}
    (beyond : cut.Beyond start) (run : Run (system options) permitted start log state) :
    cut.Beyond state ∧ ∀ event ∈ log,
      (∀ attempt, event.attempt? = some attempt → cut.io.nextAttempt < attempt) ∧
        ∀ id, event.peer? = some id → cut.io.nextPeerId < id := by
  induction run with
  | refl => exact ⟨beyond, by simp⟩
  | next _ _ step ih =>
      obtain ⟨before, told⟩ := ih
      refine ⟨before.step step, fun event listed => ?_⟩
      exact (List.mem_append.mp listed).elim (told event) (before.notifies step event)

/-- The call is neither queued nor pending. -/
structure State.Settled (call : Nat) (state : State) : Prop where
  unasked : state.handlers.countP (Handler.requests call) = 0
  absent : state.io.pendingOf call = 0

/-- The handler of the call, and its request, come to the handler of the `stop()`. -/
inductive State.Settling (call : Nat) (state : State) : Prop where
  | halting {done : Nat} (pending : done < 5) (stops : state.StopsFrom done)
  | stopping {front back : List Handler} (handlers : state.handlers = front ++ .stop :: back)
      (unasked : back.countP (Handler.requests call) = 0)
  | settled (settled : state.Settled call)

theorem Turn.stop_pendingOf (call : Nat) (turn : Turn) :
    turn.closeAcceptor.closeAllPeers.closeSocketPathHealthCheckPeer.io.pendingOf call = 0 := by
  have kept := (closeSocketPathHealthCheckPeer_internal
    turn.closeAcceptor.closeAllPeers).requestManager
  rw [Io.pendingOf, kept, List.countP_eq_zero]
  intro request pending
  let completed := turn.closeAcceptor.request (·.completeAll .operationAborted)
  change request ∈ completed.io.requestManager.pendingRequests.entries at pending
  cases ((mem_pending_request rfl).mp pending).2

section

variable {call : Nat}

/-- A handler queues none that makes the call. -/
theorem run_unasked (call : Nat) (options : CommonOptions) (scope : NotificationScope)
    (outcome : BindOutcome) (handler : Handler) (io : Io) :
    (Turn.run options scope outcome handler { io }).posts.countP (Handler.requests call) = 0 := by
  obtain ⟨_, posts, _⟩ := Turn.run_keeps call options scope outcome handler { io }
  exact countP_eq_zero_of_forall (posts.forall_mem (by simp))

/-- Outside, only the call itself queues a handler that makes it. -/
theorem countP_requests {more : List Handler}
    (own : ∀ handler ∈ more, ∀ call, handler.requests call = true →
      events.countP (Event.issues call) ≠ 0)
    (unissued : events.countP (Event.issues call) = 0) :
    more.countP (Handler.requests call) = 0 :=
  List.countP_eq_zero.mpr fun handler member requests => own handler member call requests unissued

theorem State.Settled.step (settled : state.Settled call)
    (step : (system options).step? state label = some (state', events))
    (unissued : events.countP (Event.issues call) = 0) : state'.Settled call := by
  obtain ⟨unasked, absent⟩ := settled
  cases Program.step_of_eq_some step with
  | @handler handler rest queued outcome =>
      have unposted := run_unasked call options state.scope outcome handler state.io
      obtain ⟨owed, _⟩ := Turn.run_keeps call options state.scope outcome handler
        { io := state.io }
      rw [queued, List.countP_cons, Nat.add_eq_zero_iff] at unasked
      have none : Turn.owed call { io := state.io } = 0 := by simp [Turn.owed, absent]
      rw [none, unasked.2] at owed
      refine ⟨?_, (Nat.add_eq_zero_iff.mp owed).1⟩
      exact List.countP_append.trans (Nat.add_eq_zero_iff.mpr ⟨unasked.1, unposted⟩)
  | @job job rest queued verdict =>
      have unposted := (perform_places call state.dispatcher job verdict).1
      refine ⟨?_, absent⟩
      exact List.countP_append.trans (Nat.add_eq_zero_iff.mpr ⟨unasked, unposted⟩)
  | delayed idle due => exact ⟨unasked, absent⟩
  | input accepted =>
      have accepts := accepts_of_eq_some accepted
      obtain ⟨more, posts, own⟩ := accepts.posts
      refine ⟨?_, (accepts.pendingOf call).trans absent⟩
      rw [posts, List.countP_append, unasked, countP_requests own unissued]

theorem run_settled {later : List Event} {start : State} {permitted : State → Label → Prop}
    (settled : start.Settled call) (run : Run (system options) permitted start later state)
    (unissued : later.countP (Event.issues call) = 0) : state.Settled call := by
  induction run with
  | refl => exact settled
  | next _ _ step ih =>
      rw [List.countP_append, Nat.add_eq_zero_iff] at unissued
      exact (ih unissued.1).step step unissued.2

theorem State.Settling.step (settling : state.Settling call)
    (step : (system options).step? state label = some (state', events))
    (unissued : events.countP (Event.issues call) = 0) : state'.Settling call := by
  cases settling with
  | @halting done pending stops =>
      cases stops.step pending step with
      | kept stops dispatcher => exact .halting pending stops
      | next less stops handlers dispatcher => exact .halting (Nat.succ_lt_succ less) stops
      | last own handlers dispatcher => exact .stopping handlers rfl
  | @stopping front back handlers unasked =>
      cases Program.step_of_eq_some step with
      | @handler handler rest queued outcome =>
          have unposted := run_unasked call options state.scope outcome handler state.io
          rw [queued] at handlers
          cases front with
          | nil =>
              obtain ⟨rfl, rfl⟩ := List.cons.inj handlers
              refine .settled ⟨?_, Turn.stop_pendingOf call { io := state.io }⟩
              exact List.countP_append.trans (Nat.add_eq_zero_iff.mpr ⟨unasked, unposted⟩)
          | cons first front =>
              obtain ⟨rfl, rfl⟩ := List.cons.inj handlers
              refine .stopping (List.append_assoc ..) ?_
              exact List.countP_append.trans (Nat.add_eq_zero_iff.mpr ⟨unasked, unposted⟩)
      | @job job rest queued verdict =>
          have unposted := (perform_places call state.dispatcher job verdict).1
          refine .stopping ((congrArg (· ++ _) handlers).trans (List.append_assoc ..)) ?_
          exact List.countP_append.trans (Nat.add_eq_zero_iff.mpr ⟨unasked, unposted⟩)
      | delayed idle due => exact .stopping handlers unasked
      | input accepted =>
          obtain ⟨more, posts, own⟩ := (accepts_of_eq_some accepted).posts
          have stays : state'.handlers = front ++ .stop :: (back ++ more) := by
            rw [posts, handlers, List.append_assoc, List.cons_append]
          refine .stopping stays ?_
          rw [List.countP_append, unasked, countP_requests own unissued]
  | settled settled => exact .settled (settled.step step unissued)

theorem run_settling {later : List Event} {start : State} {permitted : State → Label → Prop}
    (settling : start.Settling call) (run : Run (system options) permitted start later state)
    (unissued : later.countP (Event.issues call) = 0) : state.Settling call := by
  induction run with
  | refl => exact settling
  | next _ _ step ih =>
      rw [List.countP_append, Nat.add_eq_zero_iff] at unissued
      exact (ih unissued.1).step step unissued.2

end

namespace State

/-- While a `stop()` is under way, its next effect is in front of the queue. -/
theorem StopsFrom.front {done : Nat} (stops : state.StopsFrom done) (pending : done < 5) :
    ∃ job, state.jobs.head? = some job ∧ job.isStopPart = true := by
  obtain ⟨rest, jobs⟩ := stops
  rw [jobs]
  interval_cases done <;> exact ⟨_, rfl, rfl⟩

/-- While a `stop()` is under way, its handler has still to run. -/
theorem StopsFrom.coming {done : Nat} (stops : state.StopsFrom done) (pending : done < 5) :
    state.StopComing := by
  obtain ⟨rest, jobs⟩ := stops
  refine .inr ?_
  rw [jobs]
  interval_cases done <;> simp [stopTail]

end State

end

end UnixDomainStream.Server
