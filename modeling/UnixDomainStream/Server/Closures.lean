import UnixDomainStream.Server.Stopping

/-!
# Closed once

The accept loop and the probes both close the acceptor and report it.  As long as
each of them fails on the acceptor that it was started on, every acceptor that is
bound is closed at most once, and by nobody else.
-/

namespace UnixDomainStream.Server

open Library

/-- What an observer notes: a notification enqueued by a handler.  A `closed` comes
with the acceptor that the handler found open, which it has closed. -/
inductive Report where
  | bound (attempt : Nat)
  | closed (attempt : Nat) (found : Option Nat)
  deriving DecidableEq, Repr

def report? (found : Option Nat) : Nat × Notice → Option Report
  | (_, .bound attempt) => some (.bound attempt)
  | (_, .closed attempt) => some (.closed attempt found)
  | _ => none

def reports (state : State) (label : Label) (state' : State) : List Report :=
  match label with
  | .handler _ =>
      (bindNotices (state'.jobs.drop state.jobs.length)).filterMap (report? state.io.acceptor)
  | _ => []

/-- The acceptor on which the failing accept loop or the failing current probe was
started. -/
def Handler.failing? (scope : NotificationScope) (io : Io) : Handler → Option Nat
  | .accept operation (.error errorCode) =>
      if scope.isCurrent operation.token ∧ errorCode ≠ .operationAborted then
        some operation.attempt
      else none
  | .healthCheckTimeout probe errorCode =>
      if Turn.isCurrentProbe scope probe { io } ∧ errorCode = .success then some probe.attempt
      else none
  | .healthCheckConnect probe errorCode =>
      if Turn.isCurrentProbe scope probe { io } ∧ errorCode ≠ .success then some probe.attempt
      else none
  | .healthCheckFailed probe _ =>
      if Turn.isCurrentProbe scope probe { io } then some probe.attempt else none
  | _ => none

/-- Nothing stops the server. -/
def Going (_ : State) : Label → Prop
  | .input input => input ≠ .asyncStop
  | _ => True

instance (state : State) (label : Label) : Decidable (Going state label) :=
  match label with
  | .input _ => inferInstanceAs (Decidable (_ ≠ _))
  | .handler _ => .isTrue trivial
  | .job _ => .isTrue trivial
  | .delayed _ => .isTrue trivial

/-- Nothing stops the server, and what fails was started on the acceptor that is open. -/
def Fitting (state : State) : Label → Prop
  | .handler _ => ∀ handler ∈ state.handlers.head?, ∀ attempt ∈
      handler.failing? state.dispatcher.notificationScope state.io,
      state.io.acceptor = some attempt
  | .input input => input ≠ .asyncStop
  | _ => True

instance (state : State) (label : Label) : Decidable (Fitting state label) :=
  match label with
  | .handler _ => inferInstanceAs (Decidable (∀ handler ∈ state.handlers.head?, ∀ attempt ∈
      handler.failing? state.dispatcher.notificationScope state.io,
      state.io.acceptor = some attempt))
  | .input _ => inferInstanceAs (Decidable (_ ≠ _))
  | .job _ => .isTrue trivial
  | .delayed _ => .isTrue trivial

/-- Each `bound` is followed by at most one `closed`, of the acceptor just bound; the
second argument is the acceptor still open. -/
inductive Paired : List Report → Option Nat → Prop where
  | nil : Paired [] none
  | bound {log : List Report} (paired : Paired log none) (attempt : Nat) :
      Paired (log ++ [.bound attempt]) (some attempt)
  | closed {log : List Report} {attempt : Nat} (paired : Paired log (some attempt)) :
      Paired (log ++ [.closed attempt (some attempt)]) none

/-! ## No stop -/

/-- No stop is queued. -/
structure State.Unstopped (state : State) : Prop where
  handlers : ∀ handler ∈ state.handlers, handler.stops = false
  jobs : ∀ job ∈ state.jobs, job.stops = false
  delayed : ∀ job ∈ state.delayed, job.stops = false

theorem Handler.stops_eq_false {handler : Handler} (other : handler.isSession = false) :
    handler.stops = false := by
  cases handler <;> first | rfl | cases other

theorem Job.stops_eq_false {job : Job} (other : job.isSession = false) : job.stops = false := by
  cases job <;> first | rfl | cases other

section

variable {options : CommonOptions} {state state' : State} {label : Label} {events : List Event}

theorem step_unstopped (unstopped : state.Unstopped) (quiet : label ≠ .input .asyncStop)
    (step : (system options).step? state label = some (state', events)) : state'.Unstopped := by
  have grown : ∀ {α : Type} {stops : α → Bool} {old new : List α},
      (∀ element ∈ old, stops element = false) → (∀ element ∈ new, stops element = false) →
      ∀ element ∈ old ++ new, stops element = false :=
    fun old new element member => (List.mem_append.mp member).elim (old element) (new element)
  cases Program.step_of_eq_some step with
  | @handler handler rest queued outcome =>
      have move := Turn.run_probeMove options state.dispatcher.notificationScope outcome handler
        state.io
      refine ⟨grown ?_ ?_, grown unstopped.jobs ?_, unstopped.delayed⟩
      · exact fun other member => unstopped.handlers other (queued ▸ List.mem_cons_of_mem _ member)
      · exact fun other member => Handler.stops_eq_false (move.posts other member)
      · exact fun other member => Job.stops_eq_false (move.jobs other member)
  | @job job rest queued verdict =>
      obtain ⟨posts, next, jobs, delayed⟩ := perform_unstopped
        (unstopped.jobs job (queued ▸ List.mem_cons_self)) state.dispatcher verdict
      refine ⟨grown unstopped.handlers posts, grown (grown next ?_) jobs,
        grown unstopped.delayed delayed⟩
      exact fun other member => unstopped.jobs other (queued ▸ List.mem_cons_of_mem _ member)
  | @delayed index job idle due =>
      refine ⟨unstopped.handlers, ?_,
        fun other member => unstopped.delayed other (List.mem_of_mem_eraseIdx member)⟩
      intro other member
      rw [List.mem_singleton.mp member]
      exact unstopped.delayed job (List.mem_of_getElem? due)
  | input accepted =>
      cases accepts_of_eq_some accepted with
      | asyncStart => exact ⟨unstopped.handlers, grown unstopped.jobs (by simp [Job.stops]),
          unstopped.delayed⟩
      | asyncStop => exact absurd rfl quiet
      | destroy alive released =>
          exact ⟨unstopped.handlers,
            fun job member => unstopped.jobs job (List.mem_filter.mp member).1,
            unstopped.delayed⟩
      | _ => exact ⟨grown unstopped.handlers (by simp [Handler.stops]), unstopped.jobs,
          unstopped.delayed⟩

/-! ## Reports in pairs -/

theorem Turn.Failure.fits {scope : NotificationScope} {io : Io} {handler : Handler}
    {attempt token : Nat} (failure : Failure scope io handler attempt token)
    (fitting : ∀ attempt ∈ handler.failing? scope io, io.acceptor = some attempt) :
    io.acceptor = some attempt := by
  cases failure with
  | accept genuine current => exact fitting _ (by simp_all [Handler.failing?])
  | timeout current => exact fitting _ (by simp [Handler.failing?, current])
  | connect failed current => exact fitting _ (by simp [Handler.failing?, current, failed])
  | peer current => exact fitting _ (by simp [Handler.failing?, current])
  | endpoint current bound => exact bound

theorem handler_paired (options : CommonOptions) (outcome : BindOutcome) {log : List Report}
    {handler : Handler} {rest : List Handler} (paired : Paired log state.io.acceptor)
    (unstopped : state.Unstopped) (queued : state.handlers = handler :: rest)
    (fitting : ∀ attempt ∈ handler.failing? state.dispatcher.notificationScope state.io,
      state.io.acceptor = some attempt) :
    Paired (log ++ (bindNotices (Turn.run options state.dispatcher.notificationScope outcome
        handler { io := state.io }).jobs).filterMap (report? state.io.acceptor))
      (Turn.run options state.dispatcher.notificationScope outcome handler
        { io := state.io }).io.acceptor := by
  have move := Turn.run_acceptorMove options state.dispatcher.notificationScope outcome handler
    state.io
  generalize Turn.run options _ outcome handler _ = turn at move ⊢
  cases move with
  | kept inert acceptor accepts nextAttempt notices =>
      rw [notices, acceptor]
      simpa using paired
  | bound own current unbound acceptor accepts nextAttempt notices =>
      rw [unbound] at paired
      rw [notices, acceptor]
      exact paired.bound _
  | bindFailed own current unbound acceptor accepts nextAttempt notices =>
      rw [unbound] at paired
      rw [notices, acceptor]
      simpa [List.filterMap_cons, report?] using paired
  | listened own current acceptor accepts nextAttempt notices =>
      rw [notices, acceptor]
      simpa using paired
  | closed failure acceptor accepts nextAttempt notices =>
      have found := failure.fits fitting
      rw [found] at paired
      rw [notices, acceptor, found]
      exact paired.closed
  | stopped own =>
      have stops := unstopped.handlers handler (queued ▸ List.mem_cons_self)
      rw [own] at stops
      cases stops

theorem Accepts.acceptor {input : Input} (accepts : Accepts state input events state') :
    state'.io.acceptor = state.io.acceptor := by
  cases accepts <;> rfl

theorem step_paired {log notes : List Report} (paired : Paired log state.io.acceptor)
    (unstopped : state.Unstopped) (fitting : Fitting state label)
    (step : ((system options).observing reports).step? state label = some (state', notes)) :
    Paired (log ++ notes) state'.io.acceptor := by
  obtain ⟨events, stepped, rfl⟩ := Run.step_of_observing step
  cases Program.step_of_eq_some stepped with
  | @handler handler rest queued outcome =>
      have paired := handler_paired options outcome paired unstopped queued
        (fitting handler (by rw [queued]; rfl))
      simp only [reports, program, handle, List.drop_left]
      exact paired
  | job queued verdict => simpa [reports] using paired
  | delayed idle due => simpa [reports] using paired
  | input accepted =>
      rw [(accepts_of_eq_some accepted).acceptor]
      simpa [reports] using paired

theorem run_paired {log : List Report}
    (run : Run ((system options).observing reports) Fitting initial log state) :
    Paired log state.io.acceptor ∧ state.Unstopped := by
  induction run with
  | refl => exact ⟨.nil, nofun, nofun, nofun⟩
  | @next log state label notes state' run fitting step ih =>
      obtain ⟨paired, unstopped⟩ := ih
      refine ⟨step_paired paired unstopped fitting step, ?_⟩
      obtain ⟨events, stepped, _⟩ := Run.step_of_observing step
      refine step_unstopped unstopped ?_ stepped
      rintro rfl
      exact fitting rfl

end

/-! ## Between two bounds -/

def Report.isBound : Report → Bool
  | .bound _ => true
  | .closed _ _ => false

/-- While an acceptor is open, its `bound` is the last report. -/
theorem Paired.last {log : List Report} {attempt : Nat} (paired : Paired log (some attempt)) :
    ∃ earlier, log = earlier ++ [.bound attempt] := by
  cases paired with
  | bound earlier => exact ⟨_, rfl⟩

/-- Without a `bound` there is at most one `closed`. -/
theorem Paired.between {log : List Report} {acceptor : Option Nat} (paired : Paired log acceptor)
    {before middle after : List Report} (split : log = before ++ middle ++ after)
    (unbound : ∀ report ∈ middle, report.isBound = false) : middle.length ≤ 1 := by
  induction paired generalizing before middle after with
  | nil =>
      have empty : middle = [] := by
        simp only [List.nil_eq, List.append_eq_nil_iff] at split
        exact split.1.2
      simp [empty]
  | @bound log paired attempt ih =>
      rcases List.eq_nil_or_concat after with rfl | ⟨after, last, rfl⟩
      · rcases List.eq_nil_or_concat middle with rfl | ⟨middle, last, rfl⟩
        · simp
        · rw [List.concat_eq_append, List.append_nil, ← List.append_assoc] at split
          obtain ⟨_, same⟩ := List.append_inj' split rfl
          have bound := unbound last (by simp)
          rw [← List.singleton_inj.mp same] at bound
          cases bound
      · rw [List.concat_eq_append, ← List.append_assoc] at split
        exact ih (List.append_inj' split rfl).1 unbound
  | @closed log attempt paired ih =>
      rcases List.eq_nil_or_concat after with rfl | ⟨after, last, rfl⟩
      · rcases List.eq_nil_or_concat middle with rfl | ⟨middle, last, rfl⟩
        · simp
        · rw [List.concat_eq_append, List.append_nil, ← List.append_assoc] at split
          obtain ⟨earlier, same⟩ := paired.last
          have before' := (List.append_inj' split rfl).1
          rcases List.eq_nil_or_concat middle with rfl | ⟨middle, newest, rfl⟩
          · simp
          · rw [same, List.concat_eq_append, ← List.append_assoc] at before'
            obtain ⟨_, bound⟩ := List.append_inj' before' rfl
            have unbound' := unbound newest (by simp)
            rw [← List.singleton_inj.mp bound] at unbound'
            cases unbound'
      · rw [List.concat_eq_append, ← List.append_assoc] at split
        exact ih (List.append_inj' split rfl).1 unbound

/-- A `closed` is of the acceptor that was found open. -/
theorem Paired.own {log : List Report} {acceptor : Option Nat} (paired : Paired log acceptor)
    {attempt : Nat} {found : Option Nat} (member : .closed attempt found ∈ log) :
    found = some attempt := by
  induction paired with
  | nil => cases member
  | bound paired other ih =>
      rcases List.mem_append.mp member with old | new
      · exact ih old
      · cases List.mem_singleton.mp new
  | closed paired ih =>
      rcases List.mem_append.mp member with old | new
      · exact ih old
      · cases List.mem_singleton.mp new
        rfl

/-- Between two consecutive `bound` at most one `closed` is enqueued, and a failure
closes no acceptor but the one that it was started on. -/
theorem closed_once (options : CommonOptions) {log : List Report} {state : State}
    (run : Run ((system options).observing reports) Fitting initial log state) :
    (∀ before middle after, log = before ++ middle ++ after →
      (∀ report ∈ middle, report.isBound = false) → middle.length ≤ 1) ∧
    ∀ attempt found, .closed attempt found ∈ log → found = some attempt :=
  have paired := (run_paired run).1
  ⟨fun _ _ _ split unbound => paired.between split unbound, fun _ _ member => paired.own member⟩

/-- A probe fails, and the server is bound again. -/
theorem closed_once_probe_failure :
    ∃ log state, Run ((system {}).observing reports) Fitting initial log state ∧
      log = [.bound 1, .closed 1 (some 1), .bound 2] ∧
      (∀ before middle after, log = before ++ middle ++ after →
        (∀ report ∈ middle, report.isBound = false) → middle.length ≤ 1) ∧
      ∀ attempt found, .closed attempt found ∈ log → found = some attempt := by
  let handlers (count : Nat) : List Label := List.replicate count (.handler .succeeded)
  let jobs (count : Nat) : List Label := List.replicate count (.job true)
  let labels : List Label :=
    [.input .asyncStart] ++ jobs 2 ++ handlers 1 ++ jobs 5 ++ handlers 1 ++
      [.input (.healthCheckExpires 1)] ++ handlers 1 ++ jobs 5 ++ [.delayed 1] ++ jobs 2 ++
      handlers 3
  have computed : (Run.steps? ((system {}).observing reports) Fitting initial labels).map
      (·.2) = some [.bound 1, .closed 1 (some 1), .bound 2] := by
    decide +kernel
  obtain ⟨⟨state, log⟩, ran, same⟩ := Option.map_eq_some_iff.mp computed
  have run := Run.of_steps? ran
  exact ⟨log, state, run, same, closed_once {} run⟩

/-- Both detectors fail on one acceptor.  If the probe fails before the server is
bound again, the acceptor is reported closed twice; if it fails after that, it closes
the new acceptor. -/
theorem closed_twice_and_astray :
    (∃ state, Run ((system {}).observing reports) Going initial
      ([.bound 1] ++ [.closed 1 (some 1), .closed 1 none] ++ [.bound 2]) state) ∧
    ∃ state, Run ((system {}).observing reports) Going initial
      [.bound 1, .closed 1 (some 1), .bound 2, .closed 1 (some 2)] state := by
  let handlers (count : Nat) : List Label := List.replicate count (.handler .succeeded)
  let jobs (count : Nat) : List Label := List.replicate count (.job true)
  let labels : List Label :=
    [.input .asyncStart] ++ jobs 2 ++ handlers 1 ++ jobs 5 ++ handlers 1 ++
      [.input (.acceptCompletes (.error .badDescriptor))]
  have early : (Run.steps? ((system {}).observing reports) Going initial
      (labels ++ [.input (.healthCheckExpires 1)] ++ handlers 2 ++ jobs 10 ++ [.delayed 2] ++
        jobs 2 ++ handlers 2)).map (·.2) =
      some ([.bound 1] ++ [.closed 1 (some 1), .closed 1 none] ++ [.bound 2]) := by
    decide +kernel
  have late : (Run.steps? ((system {}).observing reports) Going initial
      (labels ++ handlers 1 ++ jobs 5 ++ [.delayed 1] ++ jobs 2 ++ handlers 1 ++
        [.input (.healthCheckExpires 1)] ++ handlers 1)).map (·.2) =
      some [.bound 1, .closed 1 (some 1), .bound 2, .closed 1 (some 2)] := by
    decide +kernel
  obtain ⟨⟨state, _⟩, ran, rfl⟩ := Option.map_eq_some_iff.mp early
  obtain ⟨⟨state', _⟩, ran', rfl⟩ := Option.map_eq_some_iff.mp late
  exact ⟨⟨state, Run.of_steps? ran⟩, state', Run.of_steps? ran'⟩

end UnixDomainStream.Server
