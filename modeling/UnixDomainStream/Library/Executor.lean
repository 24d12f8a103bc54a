import UnixDomainStream.Library.Transition

/-!
# Two threads and their queues

An I/O thread runs handlers and a dispatcher thread runs jobs, each from a queue
of its own in the order of arrival.  A handler sees the dispatcher's state but
changes only the I/O state, a job changes only the dispatcher's state; both may
append to either queue.  A job may leave the rest of its work as further jobs in
front of the queue, so handlers run between its individual effects.  A delayed
job becomes ready when no other job is queued.
-/

namespace UnixDomainStream.Library

/-- What a handler appends to the queues, and the events it emits. -/
structure Output (Handler Job Event : Type) where
  posts : List Handler := []
  jobs : List Job := []
  events : List Event := []

/-- What a job appends to the queues; `next` goes to the front. -/
structure JobOutput (Handler Job Event : Type) extends Output Handler Job Event where
  next : List Job := []
  delayed : List Job := []

structure Configuration (Io Dispatcher Handler Job : Type) where
  io : Io
  dispatcher : Dispatcher
  handlers : List Handler := []
  jobs : List Job := []
  delayed : List Job := []

namespace Configuration

variable {Io Dispatcher Handler Job : Type} {ofHandler ofHandler' : Handler → Prop}
variable {ofJob ofJob' : Job → Prop} {state : Configuration Io Dispatcher Handler Job}

/-- All queued work has a property. -/
structure All (ofHandler : Handler → Prop) (ofJob : Job → Prop)
    (state : Configuration Io Dispatcher Handler Job) : Prop where
  handlers : ∀ handler ∈ state.handlers, ofHandler handler
  jobs : ∀ job ∈ state.jobs, ofJob job
  delayed : ∀ job ∈ state.delayed, ofJob job

namespace All

theorem mono (all : state.All ofHandler ofJob)
    (handlers : ∀ handler, ofHandler handler → ofHandler' handler)
    (jobs : ∀ job, ofJob job → ofJob' job) : state.All ofHandler' ofJob' :=
  ⟨fun handler member => handlers handler (all.handlers handler member),
    fun job member => jobs job (all.jobs job member),
    fun job member => jobs job (all.delayed job member)⟩

/-- A handler leaves the queue and appends to both queues. -/
theorem handled (all : state.All ofHandler ofJob) {handler : Handler} {rest : List Handler}
    (queued : state.handlers = handler :: rest) {io : Io} {posts : List Handler}
    {appended : List Job} (posted : ∀ handler ∈ posts, ofHandler handler)
    (enqueued : ∀ job ∈ appended, ofJob job) :
    All ofHandler ofJob
      { state with io, handlers := rest ++ posts, jobs := state.jobs ++ appended } where
  handlers other member := by
    rcases List.mem_append.mp member with old | new
    · exact all.handlers other (by simp [queued, old])
    · exact posted other new
  jobs job member := (List.mem_append.mp member).elim (all.jobs job) (enqueued job)
  delayed := all.delayed

/-- A job leaves the queue, continues in front of it and appends to the queues. -/
theorem performed (all : state.All ofHandler ofJob) {job : Job} {rest : List Job}
    (queued : state.jobs = job :: rest) {dispatcher : Dispatcher}
    {posts : List Handler} {next appended later : List Job}
    (posted : ∀ handler ∈ posts, ofHandler handler) (continued : ∀ job ∈ next, ofJob job)
    (enqueued : ∀ job ∈ appended, ofJob job) (armed : ∀ job ∈ later, ofJob job) :
    All ofHandler ofJob
      { state with
        dispatcher
        handlers := state.handlers ++ posts
        jobs := next ++ rest ++ appended
        delayed := state.delayed ++ later } where
  handlers handler member :=
    (List.mem_append.mp member).elim (all.handlers handler) (posted handler)
  jobs other member := by
    rcases List.mem_append.mp member with front | new
    · rcases List.mem_append.mp front with next | old
      · exact continued other next
      · exact all.jobs other (by simp [queued, old])
    · exact enqueued other new
  delayed job member := (List.mem_append.mp member).elim (all.delayed job) (armed job)

/-- A delayed job becomes the only one. -/
theorem due (all : state.All ofHandler ofJob) {index : Nat} {job : Job}
    (due : state.delayed[index]? = some job) :
    All ofHandler ofJob
      { state with jobs := [job], delayed := state.delayed.eraseIdx index } where
  handlers := all.handlers
  jobs other member := by
    rw [List.mem_singleton.mp member]
    exact all.delayed _ (List.mem_of_getElem? due)
  delayed other member := all.delayed other (List.mem_of_mem_eraseIdx member)

theorem posted (all : state.All ofHandler ofJob) {handler : Handler} (new : ofHandler handler) :
    All ofHandler ofJob { state with handlers := state.handlers ++ [handler] } where
  handlers other member :=
    (List.mem_append.mp member).elim (all.handlers other) fun same =>
      List.mem_singleton.mp same ▸ new
  jobs := all.jobs
  delayed := all.delayed

theorem enqueued (all : state.All ofHandler ofJob) {job : Job} (new : ofJob job) :
    All ofHandler ofJob { state with jobs := state.jobs ++ [job] } where
  handlers := all.handlers
  jobs other member :=
    (List.mem_append.mp member).elim (all.jobs other) fun same =>
      List.mem_singleton.mp same ▸ new
  delayed := all.delayed

end All

end Configuration

/-- A choice resolves what the environment decides while a handler or a job
runs; an input is an event of the environment between them. -/
inductive ExecutorLabel (Choice Verdict Input : Type) where
  | handler (choice : Choice)
  | job (verdict : Verdict)
  | delayed (index : Nat)
  | input (input : Input)
  deriving Repr

structure Program (Io Dispatcher Handler Job Choice Verdict Input Event : Type) where
  handle : Dispatcher → Io → Handler → Choice → Io × Output Handler Job Event
  perform : Dispatcher → Job → Verdict → Dispatcher × JobOutput Handler Job Event
  accept? : Configuration Io Dispatcher Handler Job → Input →
    Option (Configuration Io Dispatcher Handler Job × List Event)

namespace Program

variable {Io Dispatcher Handler Job Choice Verdict Input Event : Type}
variable (program : Program Io Dispatcher Handler Job Choice Verdict Input Event)

/-- Run the handler at the head of the queue. -/
def handlerStep? (choice : Choice) (state : Configuration Io Dispatcher Handler Job) :
    Option (Configuration Io Dispatcher Handler Job × List Event) :=
  match state.handlers with
  | [] => none
  | handler :: rest =>
      let (io, output) := program.handle state.dispatcher state.io handler choice
      some ({ state with
        io
        handlers := rest ++ output.posts
        jobs := state.jobs ++ output.jobs }, output.events)

/-- Run the job at the head of the queue. -/
def jobStep? (verdict : Verdict) (state : Configuration Io Dispatcher Handler Job) :
    Option (Configuration Io Dispatcher Handler Job × List Event) :=
  match state.jobs with
  | [] => none
  | job :: rest =>
      let (dispatcher, output) := program.perform state.dispatcher job verdict
      some ({ state with
        dispatcher
        handlers := state.handlers ++ output.posts
        jobs := output.next ++ rest ++ output.jobs
        delayed := state.delayed ++ output.delayed }, output.events)

/-- A delayed job becomes ready. -/
def delayedStep? (index : Nat) (state : Configuration Io Dispatcher Handler Job) :
    Option (Configuration Io Dispatcher Handler Job × List Event) :=
  match state.jobs, state.delayed[index]? with
  | [], some job =>
      some ({ state with jobs := [job], delayed := state.delayed.eraseIdx index }, [])
  | _, _ => none

def step? (state : Configuration Io Dispatcher Handler Job) :
    ExecutorLabel Choice Verdict Input →
      Option (Configuration Io Dispatcher Handler Job × List Event)
  | .handler choice => program.handlerStep? choice state
  | .job verdict => program.jobStep? verdict state
  | .delayed index => delayedStep? index state
  | .input input => program.accept? state input

def system : System (Configuration Io Dispatcher Handler Job)
    (ExecutorLabel Choice Verdict Input) Event where
  step? := program.step?

/-- The four kinds of step. -/
inductive Step (state : Configuration Io Dispatcher Handler Job) :
    ExecutorLabel Choice Verdict Input → List Event →
      Configuration Io Dispatcher Handler Job → Prop where
  | handler {handler : Handler} {rest : List Handler} (queued : state.handlers = handler :: rest)
      (choice : Choice) :
      Step state (.handler choice)
        (program.handle state.dispatcher state.io handler choice).2.events
        { state with
          io := (program.handle state.dispatcher state.io handler choice).1
          handlers := rest ++ (program.handle state.dispatcher state.io handler choice).2.posts
          jobs := state.jobs ++
            (program.handle state.dispatcher state.io handler choice).2.jobs }
  | job {job : Job} {rest : List Job} (queued : state.jobs = job :: rest) (verdict : Verdict) :
      Step state (.job verdict) (program.perform state.dispatcher job verdict).2.events
        { state with
          dispatcher := (program.perform state.dispatcher job verdict).1
          handlers := state.handlers ++ (program.perform state.dispatcher job verdict).2.posts
          jobs := (program.perform state.dispatcher job verdict).2.next ++ rest ++
            (program.perform state.dispatcher job verdict).2.jobs
          delayed := state.delayed ++
            (program.perform state.dispatcher job verdict).2.delayed }
  | delayed {index : Nat} {job : Job} (idle : state.jobs = [])
      (due : state.delayed[index]? = some job) :
      Step state (.delayed index) []
        { state with jobs := [job], delayed := state.delayed.eraseIdx index }
  | input {input : Input} {events : List Event}
      {state' : Configuration Io Dispatcher Handler Job}
      (accepted : program.accept? state input = some (state', events)) :
      Step state (.input input) events state'

variable {program}

theorem step_of_eq_some {state state' : Configuration Io Dispatcher Handler Job}
    {label : ExecutorLabel Choice Verdict Input} {events : List Event}
    (step : program.system.step? state label = some (state', events)) :
    Step program state label events state' := by
  cases label with
  | handler choice =>
      simp only [system, step?, handlerStep?] at step
      split at step
      · cases step
      case h_2 handler rest queued =>
        cases step
        exact .handler queued choice
  | job verdict =>
      simp only [system, step?, jobStep?] at step
      split at step
      · cases step
      case h_2 job rest queued =>
        cases step
        exact .job queued verdict
  | delayed index =>
      simp only [system, step?, delayedStep?] at step
      split at step
      case h_1 job idle due =>
        cases step
        exact .delayed idle due
      · cases step
  | input input => exact .input step

end Program

end UnixDomainStream.Library
