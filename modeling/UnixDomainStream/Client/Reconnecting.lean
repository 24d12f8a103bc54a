import UnixDomainStream.Client.Tracking

/-!
# The client reconnects

While the scope runs, the client connects or is connected, or some work is queued or armed
that will begin a connect.  A cleanup leaves a reconnect behind, and so does every result
that is refused or lost.
-/

namespace UnixDomainStream.Client

open Library

/-- A job that leads to a connect is queued or armed. -/
inductive Retrying (dispatcher : Dispatcher) (jobs delayed : List Job) : Prop where
  | connect (queued : .connect ∈ jobs)
  | notice {notice : Notice} (retries : notice.retries = true)
      (queued : .notify dispatcher.notificationScope.generation notice ∈ jobs)
  | schedule (queued : .scheduleReconnect ∈ jobs)
  | debounced (front back : List Job) (queued : jobs = front ++ .reconnectDebounced :: back)
      (uncancelled : .reconnectCancelled ∉ back)
  | armed (queued : .reconnect dispatcher.reconnectTask.generation ∈ jobs ++ delayed)
      (uncancelled : .reconnectCancelled ∉ jobs)

/-- What leads from a running scope to a connection: the connection itself, a cleanup that
will schedule a reconnect, a connect behind every cleanup, or a job that leads to one. -/
inductive Hopeful (state : State) : Prop where
  | held (held : ¬ state.io.free) (settled : ¬ state.CleanupComing)
  | cleaning (queued : .invalidateConnection state.scope.generation ∈ state.handlers)
  | cleanup (queued : .postInvalidateConnection ∈ state.jobs)
  | posted (front back : List Handler)
      (queued : state.handlers = front ++ .connect state.scope.generation :: back)
      (uncleaned : ∀ handler ∈ back, handler.cleans = false)
      (settled : ∀ job ∈ state.jobs, job.cleans = false)
  | retrying (retrying : Retrying state.dispatcher state.jobs state.delayed)

/-- While the scope runs, there is hope. -/
def State.Hoping (state : State) : Prop := state.scope.running = true → Hopeful state

/-! ## A reconnect on its way -/

/-- What a job does to the reconnect task. -/
theorem perform_reconnectTask (dispatcher : Dispatcher) (job : Job) (verdict : Bool) :
    (perform dispatcher job verdict).1.reconnectTask =
      if job = .reconnectDebounced ∨ job = .reconnectCancelled then
        dispatcher.reconnectTask.advance
      else dispatcher.reconnectTask := by
  cases job <;> simp [perform]

/-- Only a call or a part of one changes the generation. -/
theorem perform_generation (dispatcher : Dispatcher) {job : Job} (verdict : Bool)
    (unpart : job.isPart = false) (uncalled : job.isCall = false) :
    (perform dispatcher job verdict).1.notificationScope.generation =
      dispatcher.notificationScope.generation := by
  rw [perform_scope]
  split
  · rfl
  · rfl
  · cases uncalled
  · cases unpart
  · rfl

namespace Retrying

variable {dispatcher : Dispatcher} {jobs delayed : List Job}

/-- Jobs queued behind, other than a cancellation. -/
theorem append (retrying : Retrying dispatcher jobs delayed) {more : List Job}
    (uncancelled : .reconnectCancelled ∉ more) : Retrying dispatcher (jobs ++ more) delayed := by
  cases retrying with
  | connect queued => exact .connect (List.mem_append_left _ queued)
  | notice retries queued => exact .notice retries (List.mem_append_left _ queued)
  | schedule queued => exact .schedule (List.mem_append_left _ queued)
  | debounced front back queued uncancelled' =>
      refine .debounced front (back ++ more) (by simp [queued]) ?_
      exact fun member => (List.mem_append.mp member).elim uncancelled' uncancelled
  | armed queued uncancelled' =>
      refine .armed ?_ fun member => (List.mem_append.mp member).elim uncancelled' uncancelled
      simp only [List.mem_append] at queued ⊢
      exact queued.imp_left .inl

/-- A delayed job becomes ready. -/
theorem ready {index : Nat} {job : Job} (retrying : Retrying dispatcher [] delayed)
    (due : delayed[index]? = some job) (other : job ≠ .reconnectCancelled) :
    Retrying dispatcher [job] (delayed.eraseIdx index) := by
  cases retrying with
  | connect queued => cases queued
  | notice retries queued => cases queued
  | schedule queued => cases queued
  | debounced front back queued => simp at queued
  | armed queued uncancelled =>
      refine .armed ?_ (by simpa using Ne.symm other)
      obtain ⟨other', at'⟩ := List.mem_iff_getElem?.mp queued
      by_cases same : other' = index
      · rw [List.nil_append, same, due] at at'
        rw [Option.some.inj at']
        exact List.mem_append_left _ (List.mem_singleton.mpr rfl)
      · exact List.mem_append_right _ (List.mem_eraseIdx_iff_getElem?.mpr ⟨other', same, at'⟩)

/-- The jobs of a peer object that ends are dropped. -/
theorem filter (retrying : Retrying dispatcher jobs delayed) (attempt : Nat) :
    Retrying dispatcher (jobs.filter fun job => !job.isOf attempt) delayed := by
  have kept : ∀ {job : Job}, job.isOf attempt = false → job ∈ jobs →
      job ∈ jobs.filter fun job => !job.isOf attempt :=
    fun other queued => List.mem_filter.mpr ⟨queued, by simp [other]⟩
  cases retrying with
  | connect queued => exact .connect (kept rfl queued)
  | notice retries queued => exact .notice retries (kept rfl queued)
  | schedule queued => exact .schedule (kept rfl queued)
  | debounced front back queued uncancelled =>
      refine .debounced (front.filter fun job => !job.isOf attempt)
        (back.filter fun job => !job.isOf attempt) ?_ fun member =>
          uncancelled (List.mem_filter.mp member).1
      rw [queued, List.filter_append, List.filter_cons_of_pos rfl]
  | armed queued uncancelled =>
      refine .armed ?_ fun member => uncancelled (List.mem_filter.mp member).1
      simp only [List.mem_append] at queued ⊢
      exact queued.imp_left (kept rfl)

/-- A notification that retries is followed by `schedule_reconnect()`. -/
theorem notify_retries {notice : Notice} (retries : notice.retries = true) (verdict : Bool) :
    .scheduleReconnect ∈ (notify verdict notice).next := by
  cases notice <;> first | exact List.mem_singleton.mpr rfl | cases retries

/-- A job that belongs to no call leaves the reconnect on its way, or posts the connect. -/
theorem job {job : Job} {rest : List Job} (retrying : Retrying dispatcher (job :: rest) delayed)
    (running : dispatcher.notificationScope.running = true) (verdict : Bool)
    (unpart : job.isPart = false) (uncalled : job.isCall = false) :
    Retrying (perform dispatcher job verdict).1
      ((perform dispatcher job verdict).2.next ++ rest ++ (perform dispatcher job verdict).2.jobs)
      (delayed ++ (perform dispatcher job verdict).2.delayed) ∨
    (job = .connect ∧ (perform dispatcher job verdict).2.posts =
      [.connect dispatcher.notificationScope.generation]) := by
  have generation := perform_generation dispatcher verdict unpart uncalled
  have task := perform_reconnectTask dispatcher job verdict
  have leaves := perform_leaves dispatcher job verdict
  have later : ∀ {other : Job}, other ∈ rest →
      other ∈ (perform dispatcher job verdict).2.next ++ rest ++
        (perform dispatcher job verdict).2.jobs :=
    fun member => List.mem_append_left _ (List.mem_append_right _ member)
  have first : ∀ {other : Job}, other ∈ (perform dispatcher job verdict).2.next →
      other ∈ (perform dispatcher job verdict).2.next ++ rest ++
        (perform dispatcher job verdict).2.jobs :=
    fun member => List.mem_append_left _ (List.mem_append_left _ member)
  have uncancelled : .reconnectCancelled ∉ (perform dispatcher job verdict).2.jobs := by
    intro member
    rw [(leaves.jobs _ member).2 rfl] at unpart
    cases unpart
  cases retrying with
  | connect queued =>
      rcases List.mem_cons.mp queued with rfl | member
      · exact .inr ⟨rfl, rfl⟩
      · exact .inl (.connect (later member))
  | notice retries queued =>
      rcases List.mem_cons.mp queued with rfl | member
      · refine .inl (.schedule (first ?_))
        have current : dispatcher.notificationScope.isCurrent
            dispatcher.notificationScope.generation = true :=
          NotificationScope.isCurrent_iff.mpr ⟨running, rfl⟩
        simp only [perform, current, if_true]
        exact notify_retries retries verdict
      · exact .inl (.notice retries (generation ▸ later member))
  | schedule queued =>
      rcases List.mem_cons.mp queued with rfl | member
      · refine .inl (.debounced rest [] ?_ List.not_mem_nil)
        simp [perform, running]
      · exact .inl (.schedule (later member))
  | debounced front back queued uncancelled' =>
      cases front with
      | nil =>
          obtain ⟨rfl, rfl⟩ := List.cons.inj queued
          refine .inl (.armed (List.mem_append_right _ (List.mem_append_right _ ?_)) ?_)
          · exact List.mem_singleton.mpr rfl
          · simpa [perform] using uncancelled'
      | cons early front =>
          obtain ⟨rfl, rfl⟩ := List.cons.inj queued
          refine .inl (.debounced ((perform dispatcher job verdict).2.next ++ front)
            (back ++ (perform dispatcher job verdict).2.jobs) (by simp) ?_)
          exact fun member => (List.mem_append.mp member).elim uncancelled' uncancelled
  | armed queued uncancelled' =>
      have kept : .reconnectCancelled ∉ (perform dispatcher job verdict).2.next ++ rest ++
          (perform dispatcher job verdict).2.jobs := by
        simp only [List.mem_append, not_or]
        exact ⟨⟨leaves.uncancelled, fun member => uncancelled' (List.mem_cons_of_mem _ member)⟩,
          uncancelled⟩
      by_cases debounced : job = .reconnectDebounced
      · subst debounced
        refine .inl (.armed ?_ kept)
        simp [perform]
      by_cases own : job = .reconnect dispatcher.reconnectTask.generation
      · subst own
        refine .inl (.connect (first ?_))
        simp [perform, running]
      · have cancelled : job ≠ .reconnectCancelled := fun same =>
          uncancelled' (same ▸ List.mem_cons_self)
        rw [if_neg (by simp [debounced, cancelled])] at task
        refine .inl (.armed ?_ kept)
        rw [task]
        rcases List.mem_append.mp queued with ready | member
        · have inRest := (List.mem_cons.mp ready).resolve_left fun same' => own same'.symm
          exact List.mem_append_left _ (later inRest)
        · exact List.mem_append_right _ (List.mem_append_left _ member)

end Retrying

/-! ## Handlers -/

section

variable {options : CommonOptions} {state state' : State} {handler : Handler}
  {rest : List Handler} {endpoint : Endpoint}

/-- What a handler reports with, before a cleanup comes, is the current token. -/
theorem State.Tracked.warrant {token : Nat} (tracked : state.Tracked)
    (settled : ¬ state.CleanupComing) (queued : state.handlers = handler :: rest)
    (warrant : Turn.Warrant state.scope state.io handler token) :
    token = state.scope.generation := by
  cases warrant with
  | current current => exact (NotificationScope.isCurrent_iff.mp current).2.symm
  | stamped attempt tracks stamped =>
      have own := tracked.stamped.queued.handlers handler (by simp [queued])
      exact ((stamped _ own).2 tracks).resolve_left settled
  | timer timer own called =>
      obtain ⟨success, callback, request, pending⟩ := RequestManager.onTimer_called called
      have waits : state.Waits timer.id (some token) := by
        refine .inr ⟨timer.errorCode, ?_⟩
        rw [queued, own, ← callback]
        exact List.mem_cons_self
      have fresh := ((tracked.timely _ _ waits).2 request pending).resolve_left settled
      exact Option.some.inj fresh

/-- The handlers are done one by one. -/
theorem Hopeful.handled {log : List Event} (hopeful : Hopeful state) (tracked : state.Tracked)
    (single : state.io.Single log) (queued : state.handlers = handler :: rest)
    (running : state.scope.running = true) :
    Hopeful (state.handled rest
      (Turn.run options state.scope endpoint handler { io := state.io })) := by
  have move := @Turn.run_connectionMove options state.scope state.io single.exclusive endpoint
    handler
  have reports := Turn.run_reports options state.scope endpoint handler { io := state.io }
  obtain ⟨jobs, enqueued, report⟩ := reports.jobs
  obtain ⟨posts, posted, following⟩ := reports.posts
  rw [List.nil_append] at enqueued posted
  have kept (settled : ¬ state.CleanupComing) : ¬ (state.handled rest
      (Turn.run options state.scope endpoint handler { io := state.io })).CleanupComing :=
    fun coming => settled (coming.of_handled reports queued)
  -- The client gave up, and has told so with a token that is still current.
  have told {token : Nat} {notice : Notice} (settled : ¬ state.CleanupComing)
      (warrant : Turn.Warrant state.scope state.io handler token)
      (retries : notice.retries = true) (told : .notify token notice ∈
        (Turn.run options state.scope endpoint handler { io := state.io }).jobs) :
      Hopeful (state.handled rest
        (Turn.run options state.scope endpoint handler { io := state.io })) := by
    obtain rfl := tracked.warrant settled queued warrant
    exact .retrying (.notice retries (List.mem_append_right _ told))
  have holds (settled : ¬ state.CleanupComing)
      (free : state.io.free → ∃ token, handler = .connect token ∧
        state.scope.isCurrent token = true) :
      Hopeful (state.handled rest
        (Turn.run options state.scope endpoint handler { io := state.io })) := by
    cases move with
    | kept connectingSocket peer inert =>
        refine .held (fun after => ?_) (kept settled)
        have free' : state.io.free :=
          ⟨connectingSocket.symm.trans after.1, peer.symm.trans after.2⟩
        obtain ⟨token, own, current⟩ := free free'
        exact inert token own current free'
    | began own current free connectingSocket =>
        refine .held (fun after => ?_) (kept settled)
        have none := connectingSocket.symm.trans after.1
        cases none
    | connected own current connecting connectingSocket peer =>
        refine .held (fun after => ?_) (kept settled)
        have none := peer.symm.trans after.2
        cases none
    | reported token notice warrant retries listed => exact told settled warrant retries listed
    | @discarded attempt token credentials verified own connecting stale =>
        have stamped := tracked.stamped.queued.handlers handler (by simp [queued])
        rw [own] at stamped
        have fresh := (stamped.2 (.inl connecting)).resolve_left settled
        have current : state.scope.isCurrent token = true :=
          NotificationScope.isCurrent_iff.mpr ⟨running, fresh.symm⟩
        simp [current] at stale
    | cleaned own =>
        exact absurd (.inl ⟨handler, queued ▸ List.mem_cons_self, own⟩) settled
  cases hopeful with
  | held held settled => exact holds settled fun free => absurd free held
  | cleaning listed =>
      rw [queued] at listed
      rcases List.mem_cons.mp listed with rfl | later
      · refine .retrying (@Retrying.notice _ _ _ .scheduleReconnect rfl ?_)
        exact List.mem_append_right _ (List.mem_append_right _ (List.mem_singleton.mpr rfl))
      · exact .cleaning (List.mem_append_left _ later)
  | cleanup listed => exact .cleanup (List.mem_append_left _ listed)
  | posted front back listed uncleaned settled =>
      have later : ∀ other ∈ back ++
          (Turn.run options state.scope endpoint handler { io := state.io }).posts,
          other.cleans = false := by
        intro other member
        rcases List.mem_append.mp member with old | new
        · exact uncleaned other old
        · exact Handler.not_cleans (following other (posted ▸ new))
      have quiet : ∀ job ∈ state.jobs ++
          (Turn.run options state.scope endpoint handler { io := state.io }).jobs,
          job.cleans = false := by
        intro job member
        rcases List.mem_append.mp member with old | new
        · exact settled job old
        · exact Job.not_cleans (report job (enqueued ▸ new))
      have split := queued.symm.trans listed
      cases front with
      | nil =>
          obtain ⟨rfl, rfl⟩ := List.cons.inj split
          refine holds ?_ fun _ => ⟨_, rfl, NotificationScope.isCurrent_iff.mpr ⟨running, rfl⟩⟩
          rintro (⟨cleaner, member, cleans⟩ | ⟨job, member, cleans⟩)
          · rw [queued] at member
            rcases List.mem_cons.mp member with rfl | behind
            · cases cleans
            · simp [uncleaned cleaner behind] at cleans
          · simp [settled job member] at cleans
      | cons first front =>
          obtain ⟨rfl, rfl⟩ := List.cons.inj split
          refine .posted front _ ?_ later quiet
          exact List.append_assoc ..
  | retrying retrying =>
      refine .retrying (retrying.append fun member => ?_)
      have reported := report _ (enqueued ▸ member)
      cases reported

end

/-! ## Jobs and the environment -/

section

variable {options : CommonOptions} {state state' : State} {job : Job} {rest : List Job}

/-- A call that is going on while the scope runs is an `invalidate_connection()`. -/
theorem Cleaning.invalidating {todo others : List Job} (cleaning : Cleaning state todo others)
    (queued : state.jobs = job :: rest) (part : job.isPart = true)
    (running : state.scope.running = true) :
    job = .postInvalidateConnection ∨ .postInvalidateConnection ∈ rest := by
  obtain ⟨later, rfl, rfl⟩ := cleaning.of_part queued part
  have unstopped : .postStop ∉ job :: later := fun listed =>
    absurd (running.symm.trans (cleaning.halted listed)) (by simp)
  rcases cleaning.tails with same | same | same | same | same | same <;>
    simp_all [stopTail, invalidateTail]

theorem Hopeful.performed (hoping : state.Hoping)
    (cleaning : ∃ todo others, Cleaning state todo others) (queued : state.jobs = job :: rest)
    (verdict : Bool) : (state.performed rest job verdict).Hoping := by
  intro running'
  obtain ⟨todo, others, cleaning⟩ := cleaning
  have leaves := perform_leaves state.dispatcher job verdict
  have scope : (state.performed rest job verdict).scope = _ :=
    perform_scope state.dispatcher job verdict
  have first : ∀ {other : Job}, other ∈ (perform state.dispatcher job verdict).2.next →
      other ∈ (state.performed rest job verdict).jobs :=
    fun listed => List.mem_append_left _ (List.mem_append_left _ listed)
  by_cases starts : job = .start
  · subst starts
    exact .retrying (.connect (first (List.mem_singleton.mpr rfl)))
  have running : state.scope.running = true := by
    rw [scope] at running'
    split at running'
    · exact absurd rfl starts
    · cases running'
    · exact running'
    · exact running'
    · exact running'
  cases part : job.isPart with
  | true =>
      rcases cleaning.invalidating queued part running with rfl | later
      · refine .cleaning (List.mem_append_right _ (List.mem_singleton.mpr ?_))
        rfl
      · exact .cleanup (List.mem_append_left _ (List.mem_append_right _ later))
  | false =>
      cases call : job.isCall with
      | true =>
          cases job with
          | stop =>
              rw [scope] at running'
              cases running'
          | invalidateConnection => exact .cleanup (first (by simp [perform]))
          | _ => cases call
      | false =>
          have generation : (state.performed rest job verdict).scope.generation =
              state.scope.generation := perform_generation state.dispatcher verdict part call
          have unparted := cleaning.of_unpart queued part
          have quiet : ∀ other ∈ (state.performed rest job verdict).jobs,
              other.cleans = false := by
            intro other listed
            have unpart : other.isPart = false := by
              rcases List.mem_append.mp listed with front | new
              · rcases List.mem_append.mp front with next | old
                · by_contra part'
                  have called := leaves.next other next (by simpa using part')
                  simp [call] at called
                · exact unparted other (queued ▸ List.mem_cons_of_mem _ old)
              · exact (leaves.jobs other new).1
            by_contra cleans
            have part' := Job.isPart_of_cleans (by simpa using cleans)
            simp [part'] at unpart
          have posts : ∀ handler ∈ (perform state.dispatcher job verdict).2.posts,
              handler.cleans = false := by
            intro handler posted
            by_contra cleans
            have part' := Job.isPart_of_cleans (leaves.posts handler posted (by simpa using cleans))
            simp [part] at part'
          cases hoping running with
          | held held settled =>
              refine .held held ?_
              rintro (⟨cleaner, listed, cleans⟩ | ⟨other, listed, cleans⟩)
              · rcases List.mem_append.mp listed with old | new
                · exact settled (.inl ⟨cleaner, old, cleans⟩)
                · simp [posts cleaner new] at cleans
              · simp [quiet other listed] at cleans
          | cleaning listed =>
              refine .cleaning ?_
              rw [generation]
              exact List.mem_append_left _ listed
          | cleanup listed => exact absurd (unparted _ listed) (by simp [Job.isPart])
          | posted front back listed uncleaned settled =>
              refine .posted front (back ++ (perform state.dispatcher job verdict).2.posts) ?_
                (fun handler member => ?_) quiet
              · rw [generation]
                show state.handlers ++ _ = _
                rw [listed, List.append_assoc, List.cons_append]
              · exact (List.mem_append.mp member).elim (uncleaned handler) (posts handler)
          | retrying retrying =>
              rw [queued] at retrying
              rcases retrying.job running verdict part call with retrying | ⟨_, posted⟩
              · exact .retrying retrying
              · refine .posted state.handlers [] ?_ (by simp) quiet
                rw [generation]
                show state.handlers ++ _ = _
                rw [posted]

/-- The environment queues no cleanup handler and cancels no reconnect. -/
theorem Hopeful.accepts {input : Input} {events : List Event} (hopeful : Hopeful state)
    (accepts : Accepts state input events state') : Hopeful state' := by
  have posted : ∀ {state' : State} {handler : Handler}, (state'.io.free → state.io.free) →
      state'.dispatcher = state.dispatcher → state'.delayed = state.delayed →
      state'.handlers = state.handlers ++ [handler] → handler.cleans = false →
      state'.jobs = state.jobs → Hopeful state' := by
    intro state' handler free dispatcher delayed handlers other jobs
    have scope : state'.scope = state.scope := congrArg Dispatcher.notificationScope dispatcher
    cases hopeful with
    | held held settled =>
        refine .held (fun after => held (free after)) ?_
        rintro (⟨cleaner, listed, cleans⟩ | ⟨job, listed, cleans⟩)
        · rw [handlers] at listed
          rcases List.mem_append.mp listed with old | new
          · exact settled (.inl ⟨cleaner, old, cleans⟩)
          · simp [List.mem_singleton.mp new, other] at cleans
        · exact settled (.inr ⟨job, jobs ▸ listed, cleans⟩)
    | cleaning listed =>
        refine .cleaning ?_
        rw [scope, handlers]
        exact List.mem_append_left _ listed
    | cleanup listed => exact .cleanup (jobs ▸ listed)
    | posted front back listed uncleaned settled =>
        refine .posted front (back ++ [handler]) ?_ (fun later member => ?_) (jobs ▸ settled)
        · rw [handlers, listed, scope, List.append_assoc, List.cons_append]
        · rcases List.mem_append.mp member with old | new
          · exact uncleaned later old
          · rw [List.mem_singleton.mp new]
            exact other
    | retrying retrying =>
        rw [← dispatcher, ← jobs, ← delayed] at retrying
        exact .retrying retrying
  have enqueued : ∀ {job : Job}, job.cleans = false → job ≠ .reconnectCancelled →
      Hopeful (enqueue job state) := by
    intro job other uncancelled
    cases hopeful with
    | held held settled =>
        refine .held held (fun coming => settled (coming.imp_right ?_))
        rintro ⟨later, listed, cleans⟩
        rcases List.mem_append.mp listed with old | new
        · exact ⟨later, old, cleans⟩
        · simp [List.mem_singleton.mp new, other] at cleans
    | cleaning listed => exact .cleaning listed
    | cleanup listed => exact .cleanup (List.mem_append_left _ listed)
    | posted front back listed uncleaned settled =>
        refine .posted front back listed uncleaned fun later member => ?_
        rcases List.mem_append.mp member with old | new
        · exact settled later old
        · rw [List.mem_singleton.mp new]
          exact other
    | retrying retrying =>
        exact .retrying (retrying.append (by simpa using uncancelled.symm))
  cases accepts with
  | asyncStart => exact enqueued rfl (by simp)
  | asyncStop => exact enqueued rfl (by simp)
  | asyncInvalidateConnection => exact enqueued rfl (by simp)
  | @destroy attempt connection alive unheld =>
      cases hopeful with
      | held held settled =>
          refine .held held (fun coming => settled (coming.imp_right ?_))
          exact fun ⟨job, listed, cleans⟩ => ⟨job, (List.mem_filter.mp listed).1, cleans⟩
      | cleaning listed => exact .cleaning listed
      | cleanup listed => exact .cleanup (List.mem_filter.mpr ⟨listed, rfl⟩)
      | posted front back listed uncleaned settled =>
          exact .posted front back listed uncleaned
            fun job member => settled job (List.mem_filter.mp member).1
      | retrying retrying => exact .retrying (retrying.filter attempt)
  | _ => exact posted id rfl rfl rfl rfl rfl

/-- A cancellation is never delayed. -/
theorem run_uncancelled {permitted : State → Label → Prop} {log : List Event}
    (run : Run (system options) permitted initial log state) :
    .reconnectCancelled ∉ state.delayed := by
  induction run with
  | refl => simp [initial]
  | @next log state label events state' _ _ step ih =>
      cases Program.step_of_eq_some step with
      | handler queued endpoint => exact ih
      | @job job rest queued verdict =>
          have added := (perform_leaves state.dispatcher job verdict).delayed
          exact fun member => (List.mem_append.mp member).elim ih fun new => (added _ new).2 rfl
      | delayed idle due => exact fun member => ih (List.mem_of_mem_eraseIdx member)
      | input accepted =>
          rw [(accepts_of_eq_some accepted).jobs.2.1]
          exact ih

theorem step_hoping {log : List Event} {label : Label} {events : List Event}
    (hoping : state.Hoping) (tracked : state.Tracked) (backed : state.Backed log)
    (cleaning : ∃ todo others, Cleaning state todo others)
    (uncancelled : .reconnectCancelled ∉ state.delayed)
    (step : (system options).step? state label = some (state', events)) : state'.Hoping := by
  cases Program.step_of_eq_some step with
  | handler queued endpoint =>
      intro running
      exact (hoping running).handled tracked backed.io queued running
  | job queued verdict => exact Hopeful.performed hoping cleaning queued verdict
  | @delayed index job idle due =>
      intro running
      have other : job ≠ .reconnectCancelled := fun same =>
        uncancelled (same ▸ List.mem_of_getElem? due)
      have unpart : job.isPart = false := by
        obtain ⟨todo, others, cleaning⟩ := cleaning
        exact cleaning.delayed job (List.mem_of_getElem? due)
      have quiet : job.cleans = false := by
        by_contra cleans
        have part := Job.isPart_of_cleans (by simpa using cleans)
        simp [part] at unpart
      cases hoping running with
      | held held settled =>
          refine .held held (fun coming => settled (coming.imp_right ?_))
          rintro ⟨later, listed, cleans⟩
          simp [List.mem_singleton.mp listed, quiet] at cleans
      | cleaning listed => exact .cleaning listed
      | cleanup listed => simp [idle] at listed
      | posted front back listed uncleaned settled =>
          refine .posted front back listed uncleaned fun later member => ?_
          rw [List.mem_singleton.mp member]
          exact quiet
      | retrying retrying =>
          rw [idle] at retrying
          exact .retrying (retrying.ready due other)
  | input accepted =>
      have accepts := accepts_of_eq_some accepted
      intro running
      unfold State.scope at running
      rw [accepts.jobs.1] at running
      exact (hoping running).accepts accepts

theorem run_hoping {permitted : State → Label → Prop} {log : List Event}
    (run : Run (system options) permitted initial log state) : state.Hoping := by
  induction run with
  | refl => simp [State.Hoping, State.scope, initial]
  | next run _ step ih =>
      exact step_hoping ih (run_tracked run) (run_backed run) (run_cleaning run)
        (run_uncancelled run) step

end

/-! ## The client at rest -/

/-- At rest, a running client with no connect outstanding has a peer whose socket is open. -/
theorem stays_connected (options : CommonOptions) {log : List Event} {state : State}
    (run : Run (system options) (fun _ _ => True) initial log state)
    (running : state.scope.running = true) (noHandler : state.handlers = [])
    (noJob : state.jobs = []) (noConnect : state.io.connects = [])
    (unarmed : .reconnect state.dispatcher.reconnectTask.generation ∉ state.delayed) :
    ∃ attempt connection, state.io.peer = some attempt ∧
      state.io.connections attempt = some connection ∧ connection.peer.isOpen = true := by
  have tracked := run_tracked run
  have settled : ¬ state.CleanupComing := by
    rintro (⟨cleaner, listed, _⟩ | ⟨job, listed, _⟩)
    · simp [noHandler] at listed
    · simp [noJob] at listed
  have held : ¬ state.io.free := by
    cases run_hoping run running with
    | held held => exact held
    | cleaning listed => simp [noHandler] at listed
    | cleanup listed => simp [noJob] at listed
    | posted front back listed => simp [noHandler] at listed
    | retrying retrying =>
        rw [noJob] at retrying
        cases retrying with
        | connect queued => cases queued
        | notice retries queued => cases queued
        | schedule queued => cases queued
        | debounced front back queued => simp at queued
        | armed queued uncancelled => exact absurd queued unarmed
  have unconnecting : state.io.connectingSocket = none := by
    cases connecting : state.io.connectingSocket with
    | none => rfl
    | some attempt =>
        rcases (tracked.pursued attempt connecting).resolve_left settled with
          ⟨connect, listed, _⟩ | ⟨handler, listed, _⟩ | ⟨job, listed, _⟩
        · simp [noConnect] at listed
        · simp [noHandler] at listed
        · simp [noJob] at listed
  cases current : state.io.peer with
  | none => exact absurd ⟨unconnecting, current⟩ held
  | some attempt =>
      obtain ⟨connection, alive, opened⟩ := tracked.linked attempt current
      refine ⟨attempt, connection, rfl, alive, opened.resolve_right ?_⟩
      rintro (⟨token, listed⟩ | ⟨token, listed⟩)
      · simp [noJob] at listed
      · simp [noHandler] at listed

/-- The first connect fails, and the reconnect succeeds. -/
theorem stays_connected_after_failure :
    ∃ log state, Run (system {}) (fun _ _ => True) initial log state ∧
      .connectFailed 1 .badDescriptor ∈ log ∧
      ∃ attempt connection, state.io.peer = some attempt ∧
        state.io.connections attempt = some connection ∧ connection.peer.isOpen = true := by
  let credentials : PeerCredentials := ⟨none, none, none⟩
  let handlers (count : Nat) : List Label := List.replicate count (.handler .constructed)
  let jobs (count : Nat) : List Label := List.replicate count (.job true)
  let labels : List Label :=
    [.input .asyncStart] ++ jobs 2 ++ handlers 1 ++
      [.input (.connectCompletes 1 (.error .badDescriptor))] ++ handlers 1 ++ jobs 3 ++
      [.delayed 0] ++ jobs 2 ++ handlers 1 ++
      [.input (.connectCompletes 2 (.socket credentials))] ++ handlers 1 ++ jobs 1 ++
      handlers 3 ++ jobs 1
  let log : List Event :=
    [.connectFailed 1 .badDescriptor, .verifyPeer 2 credentials true, .connected 2 credentials]
  let view (state : State) : Bool :=
    state.scope.running && state.handlers.isEmpty && state.jobs.isEmpty &&
      state.io.connects.isEmpty &&
      !decide (.reconnect state.dispatcher.reconnectTask.generation ∈ state.delayed)
  have computed : (Run.steps? (system {}) (fun _ _ => True) initial labels).map
      (fun result => (view result.1, result.2)) = some (true, log) := by
    decide +kernel
  obtain ⟨state, run, seen⟩ := Run.of_view computed
  simp only [view, Bool.and_eq_true, List.isEmpty_iff, Bool.not_eq_true',
    decide_eq_false_iff_not] at seen
  obtain ⟨⟨⟨⟨running, noHandler⟩, noJob⟩, noConnect⟩, unarmed⟩ := seen
  have failed : Event.connectFailed 1 .badDescriptor ∈ log := by decide
  exact ⟨log, state, run, failed,
    stays_connected {} run running noHandler noJob noConnect unarmed⟩

end UnixDomainStream.Client
