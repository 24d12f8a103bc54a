import UnixDomainStream.Library.Appends
import UnixDomainStream.PeerTurn
import UnixDomainStream.Server.Program

/-!
# Work on the acceptor, the probes and the session

Most handlers deal with the acceptor or with a health-check probe.  They leave
accepted peers and their requests alone, and what they queue is again such work.
Most jobs start or stop the session and its timers.
-/

namespace UnixDomainStream.Server

open Library

/-- A handler about the acceptor or a probe. -/
def Handler.isInternal : Handler → Bool
  | .accept _ _ => true
  | .peer (.probe _) _ => true
  | .healthCheckTimeout _ _ => true
  | .healthCheckConnect _ _ => true
  | _ => false

/-- A job about the acceptor or a probe. -/
def Job.isInternal : Job → Bool
  | .notify _ (.ready _ _) => false
  | .notify _ _ => true
  | .signal (.healthCheck _) _ => true
  | _ => false

def Event.isInternal : Event → Bool
  | .frameRead (.probe _) _ => true
  | _ => false

namespace Turn

/-- A piece of a handler that concerns the acceptor or the probes only. -/
structure Internal (before after : Turn) : Prop where
  requestManager : after.io.requestManager = before.io.requestManager
  peers : after.io.peers = before.io.peers
  nextPeerId : after.io.nextPeerId = before.io.nextPeerId
  connections : ∀ id, after.io.connections (.accepted id) = before.io.connections (.accepted id)
  posts : Appends (fun handler => handler.isInternal = true) before.posts after.posts
  jobs : Appends (fun job => job.isInternal = true) before.jobs after.jobs
  events : Appends (fun event => event.isInternal = true) before.events after.events

namespace Internal

theorem refl (turn : Turn) : Internal turn turn :=
  ⟨rfl, rfl, rfl, fun _ => rfl, .refl _, .refl _, .refl _⟩

theorem trans {first second third : Turn} (left : Internal first second)
    (right : Internal second third) : Internal first third :=
  ⟨right.requestManager.trans left.requestManager, right.peers.trans left.peers,
    right.nextPeerId.trans left.nextPeerId,
    fun id => (right.connections id).trans (left.connections id),
    left.posts.trans right.posts, left.jobs.trans right.jobs, left.events.trans right.events⟩

end Internal

theorem closeAcceptor_internal (turn : Turn) : Internal turn turn.closeAcceptor := by
  refine ⟨rfl, rfl, rfl, fun _ => rfl, .map ?_ _, .refl _, .refl _⟩
  intro accept _
  rfl

theorem cancelTimeout_internal (timeout : Nat) (turn : Turn) :
    Internal turn (turn.cancelTimeout timeout) := by
  refine ⟨rfl, rfl, rfl, fun _ => rfl, .map ?_ _, .refl _, .refl _⟩
  intro probe _
  rfl

theorem closeProbeSocket_internal (timeout : Nat) (turn : Turn) :
    Internal turn (turn.closeProbeSocket timeout) := by
  refine ⟨rfl, rfl, rfl, fun _ => rfl, .map ?_ _, .refl _, .refl _⟩
  intro probe _
  rfl

theorem enqueue_internal {job : Job} (internal : job.isInternal = true) (turn : Turn) :
    Internal turn (turn.enqueue job) := by
  refine ⟨rfl, rfl, rfl, fun _ => rfl, .refl _, .single ?_ _, .refl _⟩
  exact internal

theorem post_internal {handler : Handler} (internal : handler.isInternal = true) (turn : Turn) :
    Internal turn (turn.post handler) := by
  refine ⟨rfl, rfl, rfl, fun _ => rfl, .single ?_ _, .refl _, .refl _⟩
  exact internal

theorem resetTimeout_internal (turn : Turn) : Internal turn turn.resetTimeout := by
  unfold resetTimeout
  split
  · exact .refl turn
  case h_2 timeout _ =>
    have cancelled := cancelTimeout_internal timeout turn
    exact ⟨rfl, rfl, rfl, fun _ => rfl, cancelled.posts, .refl _, .refl _⟩

theorem resetProbePeer_internal (turn : Turn) : Internal turn turn.resetProbePeer := by
  unfold resetProbePeer
  split
  · exact .refl turn
  case h_2 timeout _ =>
    have closed : Internal turn (turn.post (.peer (.probe timeout) (.close false))) :=
      post_internal rfl turn
    exact ⟨rfl, rfl, rfl, fun _ => rfl, closed.posts, .refl _, .refl _⟩

theorem closeSocketPathHealthCheckPeer_internal (turn : Turn) :
    Internal turn turn.closeSocketPathHealthCheckPeer :=
  (resetTimeout_internal turn).trans (resetProbePeer_internal _)

/-- The peer of a probe works on the probe only. -/
theorem runPeer_probe_internal (options : CommonOptions) (timeout : Nat) (handler : PeerHandler)
    (turn : Turn) : Internal turn (turn.runPeer options (.probe timeout) handler) := by
  unfold runPeer
  split
  · exact .refl turn
  case h_2 connection alive =>
    have slots : ∃ probe, connection.slots = .healthCheck probe := by
      have named := connection.named
      cases captured : connection.slots with
      | accepted => simp [captured, Slots.ref] at named
      | healthCheck probe => exact ⟨probe, rfl⟩
    obtain ⟨probe, captured⟩ := slots
    refine ⟨rfl, rfl, rfl, fun id => by simp, .map ?_ _, ?_, .append ?_ _⟩
    · intro posted _
      rfl
    · simp only [PeerRef.peerClosed, ite_self, List.append_nil, captured]
      refine .map ?_ _
      intro signal _
      rfl
    · intro event
      unfold PeerRef.framesRead
      split
      · intro member
        rw [List.mem_singleton.mp member]
        rfl
      · simp

end Turn

/-! ## Jobs of the session -/

/-- A job that starts or stops the session, the bind retry or the health-check
timer. -/
def Job.isSession : Job → Bool
  | .notify _ _ => false
  | .signal _ _ => false
  | .enqueuePeerErrorOccurred _ _ => false
  | .enqueuePeerClosed _ => false
  | .received _ _ => false
  | .requestReceived _ _ _ => false
  | .peerErrorOccurred _ _ => false
  | .peerClosed _ => false
  | .requestCallback _ _ _ => false
  | _ => true

/-- A handler that such a job posts. -/
def Handler.isSession : Handler → Bool
  | .bind _ => true
  | .stop => true
  | .socketPathHealthCheck _ => true
  | _ => false

/-- What a job of the session leaves behind. -/
structure SessionEffect (effect : Effect) : Prop where
  posts : ∀ handler ∈ effect.posts, handler.isSession = true
  jobs : ∀ job ∈ effect.jobs, job.isSession = true
  next : ∀ job ∈ effect.next, job.isSession = true
  delayed : ∀ job ∈ effect.delayed, job.isSession = true
  events : effect.events = []

theorem SessionEffect.empty : SessionEffect {} := by
  constructor <;> simp

theorem SessionEffect.next_only {jobs : List Job} (session : ∀ job ∈ jobs, job.isSession = true) :
    SessionEffect { next := jobs } := by
  constructor <;> simp_all

theorem SessionEffect.jobs_only {jobs : List Job} (session : ∀ job ∈ jobs, job.isSession = true) :
    SessionEffect { jobs := jobs } := by
  constructor <;> simp_all

theorem SessionEffect.posts_only {handler : Handler} (session : handler.isSession = true) :
    SessionEffect { posts := [handler] } := by
  constructor <;> simp_all

theorem perform_session {job : Job} (session : job.isSession = true) (dispatcher : Dispatcher)
    (verdict : Bool) : SessionEffect (perform dispatcher job verdict).2 := by
  cases job with
  | start => exact .next_only (by simp [Job.isSession])
  | bind => exact .posts_only rfl
  | stop => exact .next_only (by simp [Job.isSession])
  | invalidateScope => exact .empty
  | cancelBindRetry => exact .jobs_only (by simp [Job.isSession])
  | stopHealthCheckTimer => exact .jobs_only (by simp [Job.isSession])
  | clearExposedPeerIds => exact .empty
  | postStop => exact .posts_only rfl
  | startHealthCheckTimer =>
      simp only [perform]
      split
      · exact .jobs_only (by simp [Job.isSession])
      · exact .empty
  | scheduleBindRetry => constructor <;> simp [perform, Job.isSession]
  | debounceBindRetry =>
      simp only [perform]
      split
      · exact .jobs_only (by simp [Job.isSession])
      · exact .empty
  | bindRetryDebounced => constructor <;> simp [perform, Job.isSession]
  | bindRetryCancelled => exact .empty
  | bindRetry generation =>
      simp only [perform]
      split
      · exact .next_only (by simp [Job.isSession])
      · exact .empty
  | healthCheckTimerStarted => exact .next_only (by simp [Job.isSession])
  | healthCheckTimerStopped => exact .empty
  | healthCheckTimerCall functionId =>
      simp only [perform]
      split
      · cases dispatcher.socketPathHealthCheckTimer.function <;>
          constructor <;> simp [Job.isSession]
      · exact .empty
  | socketPathHealthCheck => exact .posts_only rfl
  | _ => cases session

/-- Only jobs of the session are ever delayed. -/
theorem perform_delayed (dispatcher : Dispatcher) (job : Job) (verdict : Bool) :
    ∀ delayed ∈ (perform dispatcher job verdict).2.delayed, delayed.isSession = true := by
  cases job with
  | signal slots signal =>
      cases slots with
      | accepted => cases signal <;> simp [perform, slot, acceptedSlot]
      | healthCheck probe =>
          simp only [perform, slot, healthCheckSlot]
          split
          · cases signal <;> simp
          · simp
  | notify token notice =>
      simp only [perform]
      split
      · cases notice with
        | ready => cases verdict <;> simp [notify]
        | _ => simp [notify]
      · simp
  | enqueuePeerErrorOccurred => simp [perform]
  | enqueuePeerClosed => simp [perform]
  | received => simp [perform, ifExposed]
  | requestReceived => simp [perform, ifExposed]
  | peerErrorOccurred => simp [perform, ifExposed]
  | peerClosed => simp [perform]
  | requestCallback => simp [perform]
  | _ => exact (perform_session rfl dispatcher verdict).delayed

/-- The delayed jobs belong to the session. -/
def State.DelaysSession (state : State) : Prop :=
  ∀ job ∈ state.delayed, job.isSession = true

theorem step_delaysSession {options : CommonOptions} {state state' : State} {label : Label}
    {events : List Event} (session : state.DelaysSession)
    (step : (system options).step? state label = some (state', events)) :
    state'.DelaysSession := by
  cases Program.step_of_eq_some step with
  | handler queued outcome => exact session
  | job queued verdict =>
      exact (Appends.append (perform_delayed state.dispatcher _ verdict) _).forall_mem session
  | delayed idle due => exact fun job listed => session job (List.mem_of_mem_eraseIdx listed)
  | input accepted =>
      cases accepts_of_eq_some accepted <;> exact session

theorem run_delaysSession {options : CommonOptions} {permitted : State → Label → Prop}
    {log : List Event} {state : State} (run : Run (system options) permitted initial log state) :
    state.DelaysSession :=
  run.invariant_state (fun _ listed => by cases listed)
    fun session _ step => step_delaysSession session step

end UnixDomainStream.Server
