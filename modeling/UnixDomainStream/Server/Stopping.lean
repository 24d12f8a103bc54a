import UnixDomainStream.Server.Moves

/-!
# The effects of `stop()`

The five effects of one `stop()` are performed one after the other, and no other job
comes in between.  While they last the scope does not run.
-/

namespace UnixDomainStream.Server

open Library

/-- The job is `stop()` or the rest of it. -/
def Job.stops : Job → Bool
  | .stop | .invalidateScope | .cancelBindRetry | .stopHealthCheckTimer | .clearExposedPeerIds
  | .postStop => true
  | _ => false

def Handler.stops : Handler → Bool
  | .stop => true
  | _ => false

/-- The effects that follow the first one. -/
def stopTail : List Job :=
  [.invalidateScope, .cancelBindRetry, .stopHealthCheckTimer, .clearExposedPeerIds, .postStop]

def Job.isStopPart : Job → Bool
  | .invalidateScope | .cancelBindRetry | .stopHealthCheckTimer | .clearExposedPeerIds
  | .postStop => true
  | _ => false

theorem Job.isStopPart_iff {job : Job} : job.isStopPart = true ↔ job ∈ stopTail := by
  cases job <;> simp [isStopPart, stopTail]

theorem Job.not_isStopPart_of_stops {job : Job} (other : job.stops = false) :
    job.isStopPart = false := by
  cases job <;> first | rfl | cases other

/-- Work that is not of the session is no part of a stop. -/
theorem Job.not_isStopPart {job : Job} (other : job.isSession = false) :
    job.isStopPart = false := by
  cases job <;> first | rfl | cases other

/-- The rest of a `stop()` at the head of the queue, and the jobs behind it. -/
structure Stopping (state : State) (todo rest : List Job) : Prop where
  jobs : state.jobs = todo ++ rest
  suffix : todo <:+ stopTail
  others : ∀ job ∈ rest, job.isStopPart = false
  delayed : ∀ job ∈ state.delayed, job.isStopPart = false
  halted : todo ≠ [] → state.dispatcher.notificationScope.running = false

/-- While parts of a stop are at the head, the last of them is still to come. -/
theorem Stopping.last {state : State} {todo rest more : List Job} {job : Job}
    (stopping : Stopping state todo rest) (queued : state.jobs = job :: more)
    (part : job.isStopPart = true) (other : job ≠ .postStop) : .postStop ∈ more := by
  have split := stopping.jobs.symm.trans queued
  cases todo with
  | nil =>
      have unpart := stopping.others job (by
        rw [show rest = job :: more from split]
        exact List.mem_cons_self)
      simp [part] at unpart
  | cons first todo =>
      obtain ⟨rfl, rfl⟩ := List.cons.inj split
      obtain ⟨done, whole⟩ := stopping.suffix
      have last := congrArg List.getLast? whole
      refine List.mem_append_left _ ?_
      cases todo with
      | nil => simp [stopTail, other] at last
      | cons second todo =>
          have ending : (second :: todo).getLast? = some .postStop := by
            simpa [stopTail, List.getLast?_append] using last
          exact List.mem_of_getLast? ending

/-- The scope after a job. -/
theorem perform_scope (dispatcher : Dispatcher) (job : Job) (verdict : Bool) :
    (perform dispatcher job verdict).1.notificationScope =
      match job with
      | .start => dispatcher.notificationScope.start
      | .stop => dispatcher.notificationScope.halt
      | .invalidateScope => dispatcher.notificationScope.invalidate
      | _ => dispatcher.notificationScope := by
  cases job with
  | notify token notice =>
      simp only [perform]
      split
      · cases notice with
        | ready id credentials => cases verdict <;> rfl
        | _ => rfl
      · rfl
  | startHealthCheckTimer =>
      simp only [perform]
      split <;> rfl
  | debounceBindRetry =>
      simp only [perform]
      split <;> rfl
  | bindRetry generation =>
      simp only [perform]
      split <;> rfl
  | healthCheckTimerCall functionId =>
      simp only [perform]
      split <;> rfl
  | _ => rfl

/-- No job posts a handler of a probe's wait or connect, and only the last effect of
a stop posts its handler. -/
theorem perform_posts (dispatcher : Dispatcher) (job : Job) (verdict : Bool) :
    ∀ handler ∈ (perform dispatcher job verdict).2.posts,
      handler.probe? = none ∧ (handler.stops = true → job = .postStop) := by
  cases job with
  | signal slots sent =>
      cases slots with
      | accepted => cases sent <;> simp [perform, slot, acceptedSlot, Handler.probe?, Handler.stops]
      | healthCheck probe =>
          cases current : dispatcher.notificationScope.isCurrent probe.token <;> cases sent <;>
            simp [perform, slot, healthCheckSlot, current, Handler.probe?, Handler.stops]
  | notify token notice =>
      cases current : dispatcher.notificationScope.isCurrent token with
      | false => simp [perform, current]
      | true =>
          cases notice with
          | ready => cases verdict <;> simp [perform, current, notify, Handler.probe?, Handler.stops]
          | _ => simp [perform, current, notify]
  | startHealthCheckTimer =>
      cases running : dispatcher.notificationScope.running <;> simp [perform, running]
  | debounceBindRetry =>
      cases running : dispatcher.notificationScope.running <;> simp [perform, running]
  | bindRetry generation =>
      by_cases due : dispatcher.bindRetryTask.generation = generation ∧
        dispatcher.notificationScope.running = true <;> simp [perform, due]
  | healthCheckTimerCall functionId =>
      by_cases due : dispatcher.socketPathHealthCheckTimer.currentFunctionId = functionId <;>
        simp [perform, due]
  | _ => simp [perform, ifExposed, Handler.probe?, Handler.stops]

/-- Only `stop()` itself leaves parts of a stop behind. -/
theorem perform_stops (dispatcher : Dispatcher) {job : Job} (verdict : Bool)
    (other : job ≠ .stop) :
    (∀ next ∈ (perform dispatcher job verdict).2.next, next.stops = false) ∧
      (∀ later ∈ (perform dispatcher job verdict).2.jobs, later.stops = false) ∧
      ∀ later ∈ (perform dispatcher job verdict).2.delayed, later.stops = false := by
  cases job with
  | stop => exact absurd rfl other
  | signal slots sent =>
      cases slots with
      | accepted => cases sent <;> simp [perform, slot, acceptedSlot, Job.stops]
      | healthCheck probe =>
          cases current : dispatcher.notificationScope.isCurrent probe.token <;> cases sent <;>
            simp [perform, slot, healthCheckSlot, current]
  | notify token notice =>
      cases current : dispatcher.notificationScope.isCurrent token with
      | false => simp [perform, current]
      | true =>
          cases notice with
          | ready => cases verdict <;> simp [perform, current, notify]
          | _ => simp [perform, current, notify, Job.stops]
  | startHealthCheckTimer =>
      cases running : dispatcher.notificationScope.running <;> simp [perform, running, Job.stops]
  | debounceBindRetry =>
      cases running : dispatcher.notificationScope.running <;> simp [perform, running, Job.stops]
  | bindRetry generation =>
      by_cases due : dispatcher.bindRetryTask.generation = generation ∧
        dispatcher.notificationScope.running = true <;> simp [perform, due, Job.stops]
  | healthCheckTimerCall functionId =>
      by_cases due : dispatcher.socketPathHealthCheckTimer.currentFunctionId = functionId <;>
        cases active : dispatcher.socketPathHealthCheckTimer.function <;>
          simp [perform, due, active, Job.stops]
  | _ => simp [perform, ifExposed, Job.stops]

/-- A job that is no part of a stop leaves nothing of one behind. -/
theorem perform_unstopped {job : Job} (other : job.stops = false) (dispatcher : Dispatcher)
    (verdict : Bool) :
    (∀ handler ∈ (perform dispatcher job verdict).2.posts, handler.stops = false) ∧
      (∀ next ∈ (perform dispatcher job verdict).2.next, next.stops = false) ∧
      (∀ later ∈ (perform dispatcher job verdict).2.jobs, later.stops = false) ∧
      ∀ later ∈ (perform dispatcher job verdict).2.delayed, later.stops = false := by
  have differs : ∀ {part : Job}, part.stops = true → job ≠ part := by
    rintro part stops rfl
    exact absurd (other.symm.trans stops) (by simp)
  refine ⟨fun handler posted => ?_, perform_stops dispatcher verdict (differs rfl)⟩
  by_contra stops
  have last := (perform_posts dispatcher job verdict handler posted).2 (by simpa using stops)
  exact differs rfl last

/-- A part of a stop leaves no work in front of the queue. -/
theorem perform_part {job : Job} (part : job.isStopPart = true) (dispatcher : Dispatcher)
    (verdict : Bool) : (perform dispatcher job verdict).2.next = [] := by
  cases job <;> first | rfl | cases part

theorem Stopping.handler {state : State} {todo rest : List Job} (stopping : Stopping state todo rest)
    {io : Io} {handlers : List Handler} {more : List Job}
    (session : ∀ job ∈ more, job.isSession = false) :
    Stopping { state with io, handlers, jobs := state.jobs ++ more } todo (rest ++ more) where
  jobs := by rw [stopping.jobs, List.append_assoc]
  suffix := stopping.suffix
  others job member := (List.mem_append.mp member).elim (stopping.others job)
    fun new => Job.not_isStopPart (session job new)
  delayed := stopping.delayed
  halted := stopping.halted

theorem Stopping.job {state : State} {todo rest more : List Job} {job : Job}
    (stopping : Stopping state todo rest) (queued : state.jobs = job :: more) (verdict : Bool)
    {handlers : List Handler} :
    ∃ todo' rest', Stopping
      { state with
        dispatcher := (perform state.dispatcher job verdict).1
        handlers
        jobs := (perform state.dispatcher job verdict).2.next ++ more ++
          (perform state.dispatcher job verdict).2.jobs
        delayed := state.delayed ++ (perform state.dispatcher job verdict).2.delayed }
      todo' rest' := by
  have split := stopping.jobs.symm.trans queued
  cases todo with
  | nil =>
      subst split
      have others := stopping.others
      by_cases own : job = .stop
      · subst own
        refine ⟨stopTail, more, by simp [perform, stopTail], List.suffix_refl _,
          fun other member => others other (List.mem_cons_of_mem _ member), ?_, fun _ => rfl⟩
        simpa [perform] using stopping.delayed
      · obtain ⟨next, jobs, delayed⟩ := perform_stops state.dispatcher verdict own
        refine ⟨[], _, rfl, List.nil_suffix, ?_, ?_, fun busy => absurd rfl busy⟩
        · intro other member
          rcases List.mem_append.mp member with member | new
          · rcases List.mem_append.mp member with new | old
            · exact Job.not_isStopPart_of_stops (next other new)
            · exact others other (List.mem_cons_of_mem _ old)
          · exact Job.not_isStopPart_of_stops (jobs other new)
        · exact fun other member => (List.mem_append.mp member).elim (stopping.delayed other)
            fun new => Job.not_isStopPart_of_stops (delayed other new)
  | cons part todo =>
      obtain ⟨rfl, rfl⟩ := List.cons.inj split
      have halted := stopping.halted (List.cons_ne_nil _ _)
      have isPart : part.isStopPart = true :=
        Job.isStopPart_iff.mpr (stopping.suffix.mem List.mem_cons_self)
      have own : part ≠ .stop := by
        rintro rfl
        cases isPart
      have notStart : part ≠ .start := by
        rintro rfl
        cases isPart
      obtain ⟨_, jobs, delayed⟩ := perform_stops state.dispatcher verdict own
      refine ⟨todo, rest ++ (perform state.dispatcher part verdict).2.jobs, ?_, ?_, ?_, ?_, ?_⟩
      · rw [perform_part isPart, List.nil_append]
        exact List.append_assoc ..
      · exact (List.suffix_cons part todo).trans stopping.suffix
      · exact fun other member => (List.mem_append.mp member).elim (stopping.others other)
          fun new => Job.not_isStopPart_of_stops (jobs other new)
      · exact fun other member => (List.mem_append.mp member).elim (stopping.delayed other)
          fun new => Job.not_isStopPart_of_stops (delayed other new)
      · intro _
        dsimp only
        rw [perform_scope]
        split <;> first | exact absurd rfl notStart | rfl | exact halted

/-- What the environment does to the jobs. -/
theorem Accepts.jobs {state state' : State} {input : Input} {events : List Event}
    (accepts : Accepts state input events state') :
    state'.dispatcher = state.dispatcher ∧ state'.delayed = state.delayed ∧
      (state'.jobs = state.jobs ∨ state'.jobs = state.jobs ++ [.start] ∨
        state'.jobs = state.jobs ++ [.stop] ∨
        ∃ ref, state'.jobs = state.jobs.filter fun job => !job.isOf ref) := by
  cases accepts with
  | asyncStart => exact ⟨rfl, rfl, .inr (.inl rfl)⟩
  | asyncStop => exact ⟨rfl, rfl, .inr (.inr (.inl rfl))⟩
  | @destroy ref connection alive released => exact ⟨rfl, rfl, .inr (.inr (.inr ⟨ref, rfl⟩))⟩
  | _ => exact ⟨rfl, rfl, .inl rfl⟩

/-- Work of a peer object is not of the session. -/
theorem Job.isOf_isSession {job : Job} (session : job.isSession = true) (ref : PeerRef) :
    job.isOf ref = false := by
  cases job <;> first | rfl | cases session

theorem Stopping.accepts {state state' : State} {todo rest : List Job} {input : Input}
    {events : List Event} (stopping : Stopping state todo rest)
    (accepts : Accepts state input events state') :
    ∃ rest', Stopping state' todo rest' := by
  obtain ⟨dispatcher, delayed, jobs⟩ := accepts.jobs
  have halted : todo ≠ [] → state'.dispatcher.notificationScope.running = false :=
    dispatcher ▸ stopping.halted
  have later : ∀ job ∈ state'.delayed, job.isStopPart = false := delayed ▸ stopping.delayed
  have appended : ∀ job : Job, job.isStopPart = false → state'.jobs = state.jobs ++ [job] →
      ∃ rest', Stopping state' todo rest' := by
    intro job other same
    refine ⟨rest ++ [job], ?_, stopping.suffix, ?_, later, halted⟩
    · rw [same, stopping.jobs, List.append_assoc]
    · exact fun other' member => (List.mem_append.mp member).elim (stopping.others other')
        fun new => List.mem_singleton.mp new ▸ other
  rcases jobs with same | same | same | ⟨ref, same⟩
  · exact ⟨rest, same.trans stopping.jobs, stopping.suffix, stopping.others, later, halted⟩
  · exact appended .start rfl same
  · exact appended .stop rfl same
  · refine ⟨rest.filter fun job => !job.isOf ref, ?_, stopping.suffix,
      fun job member => stopping.others job (List.mem_filter.mp member).1, later, halted⟩
    have kept : todo.filter (fun job => !job.isOf ref) = todo := by
      refine List.filter_eq_self.mpr fun job member => ?_
      have part := stopping.suffix.mem member
      have session : job.isSession = true := by
        simp only [stopTail, List.mem_cons, List.not_mem_nil, or_false] at part
        rcases part with rfl | rfl | rfl | rfl | rfl <;> rfl
      simp [Job.isOf_isSession session]
    rw [same, stopping.jobs, List.filter_append, kept]

theorem step_stopping {options : CommonOptions} {state state' : State} {label : Label}
    {events : List Event} (stopping : ∃ todo rest, Stopping state todo rest)
    (step : (system options).step? state label = some (state', events)) :
    ∃ todo rest, Stopping state' todo rest := by
  obtain ⟨todo, rest, stopping⟩ := stopping
  cases Program.step_of_eq_some step with
  | @handler handler others queued outcome =>
      have move := Turn.run_probeMove options state.dispatcher.notificationScope outcome handler
        state.io
      exact ⟨todo, _, stopping.handler move.jobs⟩
  | job queued verdict => exact stopping.job queued verdict
  | @delayed index job idle due =>
      have none := stopping.jobs
      rw [idle] at none
      obtain ⟨rfl, rfl⟩ := List.append_eq_nil_iff.mp none.symm
      refine ⟨[], [job], rfl, List.nil_suffix, ?_, ?_, fun busy => absurd rfl busy⟩
      · intro other member
        rw [List.mem_singleton.mp member]
        exact stopping.delayed job (List.mem_of_getElem? due)
      · exact fun other member => stopping.delayed other (List.mem_of_mem_eraseIdx member)
  | input accepted => exact ⟨todo, stopping.accepts (accepts_of_eq_some accepted)⟩

theorem initial_stopping : Stopping initial [] [] :=
  ⟨rfl, List.nil_suffix, nofun, nofun, fun busy => absurd rfl busy⟩

theorem run_stopping {options : CommonOptions} {permitted : State → Label → Prop}
    {log : List Event} {state : State} (run : Run (system options) permitted initial log state) :
    ∃ todo rest, Stopping state todo rest := by
  induction run with
  | refl => exact ⟨[], [], initial_stopping⟩
  | next _ _ step ih => exact step_stopping ih step

end UnixDomainStream.Server
