import UnixDomainStream.Library.Appends
import UnixDomainStream.Client.Pieces

/-!
# The effects of `stop()` and `invalidate_connection()`

The effects of one such call are performed one after the other, and no other job comes in
between.  The last of them posts the handler that cleans up, and while those of a `stop()`
last the scope does not run.
-/

namespace UnixDomainStream.Client

open Library

/-- The handler gives up the connect and the peer. -/
def Handler.cleans : Handler → Bool
  | .stop | .invalidateConnection _ => true
  | _ => false

/-- The effect posts such a handler. -/
def Job.cleans : Job → Bool
  | .postStop | .postInvalidateConnection => true
  | _ => false

/-- The effects that follow the first one of `stop()`. -/
def stopTail : List Job := [.invalidateScope, .cancelReconnect, .postStop]

/-- The effects that follow the first one of `invalidate_connection()`. -/
def invalidateTail : List Job := [.cancelReconnect, .postInvalidateConnection]

def Job.isPart : Job → Bool
  | .invalidateScope | .cancelReconnect | .postStop | .postInvalidateConnection => true
  | _ => false

/-- The job is one of the two calls. -/
def Job.isCall : Job → Bool
  | .stop | .invalidateConnection => true
  | _ => false

theorem Job.isPart_of_cleans {job : Job} (cleans : job.cleans = true) : job.isPart = true := by
  cases job <;> first | rfl | cases cleans

/-- The rest of a call at the head of the queue, and the jobs behind it. -/
structure Cleaning (state : State) (todo rest : List Job) : Prop where
  jobs : state.jobs = todo ++ rest
  suffix : todo <:+ stopTail ∨ todo <:+ invalidateTail
  others : ∀ job ∈ rest, job.isPart = false
  delayed : ∀ job ∈ state.delayed, job.isPart = false
  halted : .postStop ∈ todo → state.dispatcher.notificationScope.running = false

namespace Cleaning

variable {state : State} {todo rest more : List Job} {job : Job}

/-- A part at the head of the queue begins what is left of a call. -/
theorem of_part (cleaning : Cleaning state todo rest) (queued : state.jobs = job :: more)
    (part : job.isPart = true) : ∃ later, todo = job :: later ∧ more = later ++ rest := by
  have split := cleaning.jobs.symm.trans queued
  cases todo with
  | nil =>
      have unpart := cleaning.others job (by
        rw [show rest = job :: more from split]
        exact List.mem_cons_self)
      simp [part] at unpart
  | cons first later =>
      obtain ⟨rfl, rfl⟩ := List.cons.inj split
      exact ⟨later, rfl, rfl⟩

/-- Another job is at the head only when no part is queued. -/
theorem of_unpart (cleaning : Cleaning state todo rest) (queued : state.jobs = job :: more)
    (unpart : job.isPart = false) : ∀ other ∈ state.jobs, other.isPart = false := by
  have split := cleaning.jobs.symm.trans queued
  cases todo with
  | nil =>
      rw [cleaning.jobs]
      exact cleaning.others
  | cons first later =>
      obtain ⟨rfl, rfl⟩ := List.cons.inj split
      have part : first.isPart = true := by
        rcases cleaning.suffix with suffix | suffix
        · have listed := suffix.mem List.mem_cons_self
          simp only [stopTail, List.mem_cons, List.not_mem_nil, or_false] at listed
          rcases listed with rfl | rfl | rfl <;> rfl
        · have listed := suffix.mem List.mem_cons_self
          simp only [invalidateTail, List.mem_cons, List.not_mem_nil, or_false] at listed
          rcases listed with rfl | rfl <;> rfl
      simp [part] at unpart

/-- The parts of a `stop()` and of an `invalidate_connection()`, by what is behind them. -/
theorem tails (cleaning : Cleaning state todo rest) :
    todo = [] ∨ todo = stopTail ∨ todo = [.cancelReconnect, .postStop] ∨ todo = [.postStop] ∨
      todo = invalidateTail ∨ todo = [.postInvalidateConnection] := by
  rcases cleaning.suffix with suffix | suffix
  · simp only [stopTail, List.suffix_cons_iff, List.suffix_nil] at suffix
    simp only [stopTail]
    tauto
  · simp only [invalidateTail, List.suffix_cons_iff, List.suffix_nil] at suffix
    simp only [invalidateTail]
    tauto

end Cleaning

/-! ## Jobs -/

/-- The scope after a job. -/
theorem perform_scope (dispatcher : Dispatcher) (job : Job) (verdict : Bool) :
    (perform dispatcher job verdict).1.notificationScope =
      match job with
      | .start => dispatcher.notificationScope.start
      | .stop => dispatcher.notificationScope.halt
      | .invalidateConnection => dispatcher.notificationScope.invalidate
      | .invalidateScope => dispatcher.notificationScope.invalidate
      | _ => dispatcher.notificationScope := by
  cases job <;> rfl

/-- What a job leaves behind, by what it queues. -/
structure Leaves (dispatcher : Dispatcher) (job : Job) (effect : Effect) : Prop where
  posts : ∀ handler ∈ effect.posts, handler.cleans = true → job.cleans = true
  next : ∀ later ∈ effect.next, later.isPart = true → job.isCall = true
  jobs : ∀ later ∈ effect.jobs, later.isPart = false ∧
    (later = .reconnectCancelled → job = .cancelReconnect)
  delayed : ∀ later ∈ effect.delayed, later.isPart = false ∧ later ≠ .reconnectCancelled
  uncancelled : .reconnectCancelled ∉ effect.next

theorem perform_leaves (dispatcher : Dispatcher) (job : Job) (verdict : Bool) :
    Leaves dispatcher job (perform dispatcher job verdict).2 := by
  cases job with
  | signal attempt token sent =>
      cases sent <;> constructor <;> simp [perform, slot, Handler.cleans]
  | notify token notice =>
      simp only [perform]
      split
      · cases notice <;> constructor <;> simp [notify, Handler.cleans, Job.isPart]
      · constructor <;> simp
  | scheduleReconnect => constructor <;> simp +contextual [perform, Job.isPart]
  | reconnect generation =>
      constructor <;> simp [perform]
      rintro _ _ _ rfl
      simp [Job.isPart]
  | _ =>
      constructor <;> simp [perform, Handler.cleans, Job.cleans, Job.isPart, Job.isCall]

/-- A part of a call leaves no work in front of the queue. -/
theorem perform_part {job : Job} (part : job.isPart = true) (dispatcher : Dispatcher)
    (verdict : Bool) : (perform dispatcher job verdict).2.next = [] := by
  cases job <;> first | rfl | cases part

theorem Cleaning.job {state : State} {todo rest more : List Job} {job : Job}
    (cleaning : Cleaning state todo rest) (queued : state.jobs = job :: more) (verdict : Bool)
    {handlers : List Handler} :
    ∃ todo' rest', Cleaning
      { state with
        dispatcher := (perform state.dispatcher job verdict).1
        handlers
        jobs := (perform state.dispatcher job verdict).2.next ++ more ++
          (perform state.dispatcher job verdict).2.jobs
        delayed := state.delayed ++ (perform state.dispatcher job verdict).2.delayed }
      todo' rest' := by
  have leaves := perform_leaves state.dispatcher job verdict
  have delayed : ∀ other ∈ state.delayed ++ (perform state.dispatcher job verdict).2.delayed,
      other.isPart = false := fun other member =>
    (List.mem_append.mp member).elim (cleaning.delayed other) fun new =>
      (leaves.delayed other new).1
  cases part : job.isPart with
  | true =>
      obtain ⟨later, rfl, rfl⟩ := cleaning.of_part queued part
      have started : job ≠ .start := by
        rintro rfl
        cases part
      refine ⟨later, rest ++ (perform state.dispatcher job verdict).2.jobs, ?_, ?_, ?_, delayed,
        fun stopping => ?_⟩
      · rw [perform_part part, List.nil_append, List.append_assoc]
      · exact cleaning.suffix.imp (List.suffix_cons job later).trans
          (List.suffix_cons job later).trans
      · exact fun other member => (List.mem_append.mp member).elim (cleaning.others other)
          fun new => (leaves.jobs other new).1
      · have halted := cleaning.halted (List.mem_cons_of_mem _ stopping)
        dsimp only
        rw [perform_scope]
        split <;> first | exact absurd rfl started | rfl | exact halted
  | false =>
      have others := cleaning.of_unpart queued part
      rw [queued] at others
      have behind : ∀ other ∈ more ++ (perform state.dispatcher job verdict).2.jobs,
          other.isPart = false := fun other member =>
        (List.mem_append.mp member).elim (fun old => others other (List.mem_cons_of_mem _ old))
          fun new => (leaves.jobs other new).1
      cases call : job.isCall with
      | false =>
          refine ⟨[], (perform state.dispatcher job verdict).2.next ++
              (more ++ (perform state.dispatcher job verdict).2.jobs), List.append_assoc ..,
            .inl List.nil_suffix, fun other member => ?_, delayed, by simp⟩
          rcases List.mem_append.mp member with new | old
          · cases part' : other.isPart with
            | false => rfl
            | true => simp [leaves.next other new part'] at call
          · exact behind other old
      | true =>
          cases job with
          | stop =>
              refine ⟨stopTail, _, List.append_assoc .., .inl (List.suffix_refl _), behind, delayed,
                fun _ => rfl⟩
          | invalidateConnection =>
              refine ⟨invalidateTail, _, List.append_assoc .., .inr (List.suffix_refl _), behind,
                delayed, ?_⟩
              simp [invalidateTail]
          | _ => cases call

/-! ## Handlers and the environment -/

/-- The work of the I/O thread is no part of a call, and starts or cancels no reconnect. -/
def Job.isReport : Job → Bool
  | .notify _ _ | .signal _ _ _ | .requestCallback _ _ _ => true
  | _ => false

theorem Job.not_isPart {job : Job} (report : job.isReport = true) : job.isPart = false := by
  cases job <;> first | rfl | cases report

/-- The handlers that other handlers post. -/
def Handler.isFollowing : Handler → Bool
  | .connectCompleted _ _ | .peer _ _ | .connected _ _ _ | .requestTimer _ => true
  | _ => false

namespace Turn

/-- A piece of a handler, by what it queues. -/
structure Reports (before after : Turn) : Prop where
  posts : Appends (fun handler => handler.isFollowing = true) before.posts after.posts
  jobs : Appends (fun job => job.isReport = true) before.jobs after.jobs

namespace Reports

variable {turn after : Turn}

theorem refl (turn : Turn) : Reports turn turn := ⟨.refl _, .refl _⟩

theorem trans {first second third : Turn} (left : Reports first second)
    (right : Reports second third) : Reports first third :=
  ⟨left.posts.trans right.posts, left.jobs.trans right.jobs⟩

/-- Only the queues matter. -/
theorem of_io (posts : after.posts = turn.posts) (jobs : after.jobs = turn.jobs) :
    Reports turn after := by
  refine ⟨?_, ?_⟩
  · rw [posts]
    exact .refl _
  · rw [jobs]
    exact .refl _

theorem post {before : Turn} (reports : Reports before turn) {handler : Handler}
    (following : handler.isFollowing = true) : Reports before (turn.post handler) := by
  refine reports.trans ⟨.single ?_ _, .refl _⟩
  exact following

theorem enqueue {before : Turn} (reports : Reports before turn) {job : Job}
    (report : job.isReport = true) : Reports before (turn.enqueue job) := by
  refine reports.trans ⟨.refl _, .single ?_ _⟩
  exact report

end Reports

theorem request_reports (call : RequestManager Nat Nat → RequestTurn Nat Nat) (turn : Turn) :
    Reports turn (turn.request call) := by
  refine ⟨.map ?_ _, .map ?_ _⟩
  · intro timer _
    rfl
  · intro completion _
    rfl

theorem closeSocket_reports (attempt : Nat) (turn : Turn) :
    Reports turn (turn.closeSocket attempt) := by
  refine ⟨.map ?_ _, .refl _⟩
  intro connect _
  rfl

theorem QuietPiece.reports {handler : Handler} {before after : Turn}
    (piece : QuietPiece handler before after) : Reports before after := by
  cases piece with
  | fail _ _ => exact request_reports _ before
  | closeSocket attempt => exact closeSocket_reports attempt before
  | disconnect => exact .of_io rfl rfl
  | push attempt frame => exact (Reports.refl before).post rfl
  | @release attempt _ _ _ =>
      have closed : Reports before (before.post (.peer attempt (.close false))) :=
        (Reports.refl before).post rfl
      exact closed.trans (.of_io rfl rfl)
  | dropPeer _ _ => exact .of_io rfl rfl

theorem Piece.reports {options : CommonOptions} {scope : NotificationScope} {handler : Handler}
    {start before after : Turn} (piece : Piece options scope handler start before after) :
    Reports before after := by
  cases piece with
  | quiet piece => exact piece.reports
  | notify told => exact (Reports.refl before).enqueue rfl
  | respond own current => exact request_reports _ before
  | report own => exact request_reports _ before
  | refuse own => exact (Reports.refl start).enqueue rfl
  | send own current =>
      refine ⟨.single ?_ _, .refl _⟩
      rfl
  | speak own alive ran =>
      refine ⟨.map ?_ _, .map ?_ _⟩
      · intro posted _
        rfl
      · intro sent _
        rfl
  | connectFailed errorCode own =>
      refine Reports.enqueue ?_ rfl
      exact .of_io rfl rfl
  | connect own => exact .of_io rfl rfl
  | establish own =>
      refine Reports.post ?_ rfl
      refine Reports.post ?_ rfl
      exact .of_io rfl rfl

theorem run_reports (options : CommonOptions) (scope : NotificationScope) (endpoint : Endpoint)
    (handler : Handler) (turn : Turn) : Reports turn (turn.run options scope endpoint handler) :=
  (run_pieces options scope endpoint handler turn).effect Reports.refl Reports.trans Piece.reports

end Turn

/-- What the environment does to the jobs. -/
theorem Accepts.jobs {state state' : State} {input : Input} {events : List Event}
    (accepts : Accepts state input events state') :
    state'.dispatcher = state.dispatcher ∧ state'.delayed = state.delayed ∧
      (state'.jobs = state.jobs ∨ state'.jobs = state.jobs ++ [.start] ∨
        state'.jobs = state.jobs ++ [.stop] ∨ state'.jobs = state.jobs ++ [.invalidateConnection] ∨
        ∃ attempt, state'.jobs = state.jobs.filter fun job => !job.isOf attempt) := by
  cases accepts with
  | asyncStart => exact ⟨rfl, rfl, .inr (.inl rfl)⟩
  | asyncStop => exact ⟨rfl, rfl, .inr (.inr (.inl rfl))⟩
  | asyncInvalidateConnection => exact ⟨rfl, rfl, .inr (.inr (.inr (.inl rfl)))⟩
  | @destroy attempt connection alive released =>
      exact ⟨rfl, rfl, .inr (.inr (.inr (.inr ⟨attempt, rfl⟩)))⟩
  | _ => exact ⟨rfl, rfl, .inl rfl⟩

/-- Only signals are of a peer object. -/
theorem Job.isOf_isPart {job : Job} (part : job.isPart = true) (attempt : Nat) :
    job.isOf attempt = false := by
  cases job <;> first | rfl | cases part

theorem Cleaning.accepts {state state' : State} {todo rest : List Job} {input : Input}
    {events : List Event} (cleaning : Cleaning state todo rest)
    (accepts : Accepts state input events state') : ∃ rest', Cleaning state' todo rest' := by
  obtain ⟨dispatcher, delayed, jobs⟩ := accepts.jobs
  have halted : .postStop ∈ todo → state'.dispatcher.notificationScope.running = false :=
    dispatcher ▸ cleaning.halted
  have later : ∀ job ∈ state'.delayed, job.isPart = false := delayed ▸ cleaning.delayed
  have appended : ∀ job : Job, job.isPart = false → state'.jobs = state.jobs ++ [job] →
      ∃ rest', Cleaning state' todo rest' := by
    intro job other same
    refine ⟨rest ++ [job], ?_, cleaning.suffix, ?_, later, halted⟩
    · rw [same, cleaning.jobs, List.append_assoc]
    · exact fun other' member => (List.mem_append.mp member).elim (cleaning.others other')
        fun new => List.mem_singleton.mp new ▸ other
  rcases jobs with same | same | same | same | ⟨attempt, same⟩
  · exact ⟨rest, same.trans cleaning.jobs, cleaning.suffix, cleaning.others, later, halted⟩
  · exact appended .start rfl same
  · exact appended .stop rfl same
  · exact appended .invalidateConnection rfl same
  · refine ⟨rest.filter fun job => !job.isOf attempt, ?_, cleaning.suffix,
      fun job member => cleaning.others job (List.mem_filter.mp member).1, later, halted⟩
    have kept : todo.filter (fun job => !job.isOf attempt) = todo := by
      refine List.filter_eq_self.mpr fun job member => ?_
      have part : job.isPart = true := by
        rcases cleaning.tails with rfl | rfl | rfl | rfl | rfl | rfl <;>
          simp only [stopTail, invalidateTail, List.mem_cons, List.not_mem_nil, or_false] at member
        · rcases member with rfl | rfl | rfl <;> rfl
        · rcases member with rfl | rfl <;> rfl
        · rw [member]
          rfl
        · rcases member with rfl | rfl <;> rfl
        · rw [member]
          rfl
      simp [Job.isOf_isPart part]
    rw [same, cleaning.jobs, List.filter_append, kept]

theorem step_cleaning {options : CommonOptions} {state state' : State} {label : Label}
    {events : List Event} (cleaning : ∃ todo rest, Cleaning state todo rest)
    (step : (system options).step? state label = some (state', events)) :
    ∃ todo rest, Cleaning state' todo rest := by
  obtain ⟨todo, rest, cleaning⟩ := cleaning
  cases Program.step_of_eq_some step with
  | @handler handler others queued endpoint =>
      obtain ⟨more, appended, reports⟩ := (Turn.run_reports options
        state.dispatcher.notificationScope endpoint handler { io := state.io }).jobs
      refine ⟨todo, rest ++ more, ?_, cleaning.suffix, fun job member => ?_, cleaning.delayed,
        cleaning.halted⟩
      · show state.jobs ++ Turn.jobs _ = _
        rw [appended, cleaning.jobs, List.nil_append, List.append_assoc]
      · exact (List.mem_append.mp member).elim (cleaning.others job)
          fun new => Job.not_isPart (reports job new)
  | job queued verdict => exact cleaning.job queued verdict
  | @delayed index job idle due =>
      have none := cleaning.jobs
      rw [idle] at none
      obtain ⟨rfl, rfl⟩ := List.append_eq_nil_iff.mp none.symm
      refine ⟨[], [job], rfl, .inl List.nil_suffix, ?_, ?_, by simp⟩
      · intro other member
        rw [List.mem_singleton.mp member]
        exact cleaning.delayed job (List.mem_of_getElem? due)
      · exact fun other member => cleaning.delayed other (List.mem_of_mem_eraseIdx member)
  | input accepted =>
      obtain ⟨rest', accepts⟩ := cleaning.accepts (accepts_of_eq_some accepted)
      exact ⟨todo, rest', accepts⟩

theorem initial_cleaning : Cleaning initial [] [] := by
  refine ⟨rfl, .inl List.nil_suffix, ?_, ?_, ?_⟩ <;> simp [initial]

theorem run_cleaning {options : CommonOptions} {permitted : State → Label → Prop}
    {log : List Event} {state : State} (run : Run (system options) permitted initial log state) :
    ∃ todo rest, Cleaning state todo rest := by
  induction run with
  | refl => exact ⟨[], [], initial_cleaning⟩
  | next _ _ step ih => exact step_cleaning ih step

end UnixDomainStream.Client
