import UnixDomainStream.Dispatcher.Order

/-!
# The function given to detach

`detach` puts its function in front of the queue under the dispatcher's own object id, which is
never erased, and waits until it has run.  The worker comes to it whatever the time source
says, unless it stops first; then the thread waits forever.
-/

namespace UnixDomainStream.Dispatcher

open Library

variable {log log' events : List Event} {state state' : State} {label : Label}
variable {number object : Nat} {entry : Entry}

/-- The worker has taken the entry, and its function has not begun. -/
def State.Holds (entry : Entry) (state : State) : Prop :=
  state.worker = .popped entry ∨ state.worker = .published entry

/-! ## What the worker does with each function -/

structure Working (log : List Event) (state : State) : Prop where
  began : ∀ entry, .began entry ∈ log → entry ∈ takenEntries log
  held : ∀ entry, state.Holds entry → entry ∈ takenEntries log ∧ .began entry ∉ log
  running : ∀ entry, state.worker = .running entry → .began entry ∈ log ∧ .returned entry ∉ log
  returned : ∀ entry, .returned entry ∈ log → .began entry ∈ log
  notified : ∀ entry, entry ∈ state.notified ↔ entry.owner = .dispatcher ∧ .returned entry ∈ log
  once : ∀ entry, log.count (.began entry) ≤ 1

theorem initial_working : Working [] initial where
  began := by simp
  held entry holds := by rcases holds with popped | published <;> contradiction
  running := by simp [initial]
  returned := by simp
  notified := by simp [initial]
  once := by simp

/-- Events that say nothing of what the worker does. -/
def Idle (events : List Event) : Prop :=
  ∀ event ∈ events, (∀ entry, event ≠ .began entry) ∧ ∀ entry, event ≠ .returned entry

theorem Working.idle (working : Working log state) (worker : state'.worker = state.worker)
    (notified : state'.notified = state.notified) (idle : Idle events) :
    Working (log ++ events) state' := by
  have began : ∀ entry, .began entry ∈ log ++ events ↔ .began entry ∈ log := by
    intro entry
    rw [List.mem_append, or_iff_left]
    exact fun member => (idle _ member).1 entry rfl
  have returned : ∀ entry, .returned entry ∈ log ++ events ↔ .returned entry ∈ log := by
    intro entry
    rw [List.mem_append, or_iff_left]
    exact fun member => (idle _ member).2 entry rfl
  have taken : ∀ {entry}, entry ∈ takenEntries log → entry ∈ takenEntries (log ++ events) := by
    intro entry member
    rw [takenEntries_append]
    exact List.mem_append_left _ member
  constructor
  case began => exact fun entry member => taken (working.began entry ((began entry).mp member))
  case held =>
    intro entry holds
    rw [State.Holds, worker] at holds
    obtain ⟨gone, fresh⟩ := working.held entry holds
    exact ⟨taken gone, (began entry).not.mpr fresh⟩
  case running =>
    intro entry runs
    rw [began, returned]
    exact working.running entry (worker ▸ runs)
  case returned =>
    intro entry member
    rw [began]
    exact working.returned entry ((returned entry).mp member)
  case notified =>
    intro entry
    rw [notified, returned]
    exact working.notified entry
  case once =>
    intro entry
    have none : events.count (.began entry) = 0 :=
      List.count_eq_zero.mpr fun member => (idle _ member).1 entry rfl
    rw [List.count_append, none, Nat.add_zero]
    exact working.once entry

theorem idle_nil : Idle [] := by simp [Idle]

theorem idle_one {event : Event}
    (other : (∀ entry, event ≠ .began entry) ∧ ∀ entry, event ≠ .returned entry) :
    Idle [event] := by
  intro other' member
  rw [List.mem_singleton.mp member]
  exact other

/-- The worker lets go of what it holds, or goes on with it. -/
theorem Working.moves (working : Working log state) {worker : Worker}
    (held : ∀ entry, worker = .popped entry ∨ worker = .published entry →
      entry ∈ takenEntries log ∧ .began entry ∉ log)
    (rests : ∀ entry, worker ≠ .running entry) : Working log { state with worker } where
  began := working.began
  held := held
  running entry runs := absurd runs (rests entry)
  returned := working.returned
  notified := working.notified
  once := working.once

theorem Working.taken (working : Working log state) {rest : List Entry} {now : Nat}
    (fresh : entry ∉ takenEntries log) :
    Working (log ++ [.taken entry now]) { state with queue := rest, worker := .popped entry } := by
  have taken : takenEntries (log ++ [.taken entry now]) = takenEntries log ++ [entry] :=
    takenEntries_append ..
  have idle : Idle [.taken entry now] := idle_one (by simp)
  have idled : Working (log ++ [.taken entry now]) { state with queue := rest } :=
    working.idle rfl rfl idle
  refine idled.moves (fun other holds => ?_) (by simp)
  rcases holds with popped | published
  · cases popped
    refine ⟨by simp [taken], fun member => ?_⟩
    rcases List.mem_append.mp member with old | new
    · exact fresh (working.began entry old)
    · cases List.mem_singleton.mp new
  · cases published

theorem Working.begins (working : Working log state) (published : state.worker = .published entry) :
    Working (log ++ [.began entry]) { state with worker := .running entry } := by
  obtain ⟨gone, fresh⟩ := working.held entry (.inr published)
  have taken : takenEntries (log ++ [.began entry]) = takenEntries log := by
    rw [takenEntries_append]
    exact List.append_nil _
  have returned : ∀ other, .returned other ∈ log ++ [.began entry] ↔ .returned other ∈ log := by
    simp
  constructor
  case began =>
    intro other member
    rw [taken]
    rcases List.mem_append.mp member with old | new
    · exact working.began other old
    · cases List.mem_singleton.mp new
      exact gone
  case held =>
    intro other holds
    rcases holds with popped | published
    · cases popped
    · cases published
  case running =>
    rintro other running
    cases running
    exact ⟨by simp, fun member => fresh (working.returned entry ((returned entry).mp member))⟩
  case returned =>
    intro other member
    exact List.mem_append_left _ (working.returned other ((returned other).mp member))
  case notified =>
    intro other
    rw [returned]
    exact working.notified other
  case once =>
    intro other
    rw [List.count_append]
    by_cases same : other = entry
    · subst same
      rw [List.count_eq_zero.mpr fresh]
      simp
    · have none : List.count (.began other) [Event.began entry] = 0 :=
        List.count_eq_zero.mpr (by simpa using same)
      rw [none, Nat.add_zero]
      exact working.once other

theorem Working.returns (working : Working log state) (running : state.worker = .running entry) :
    Working (log ++ [.returned entry])
      { state with
        worker := .finished entry
        notified := match entry.owner with
          | .dispatcher => entry :: state.notified
          | .object _ => state.notified } := by
  have began : ∀ other, .began other ∈ log ++ [.returned entry] ↔ .began other ∈ log := by simp
  have taken : takenEntries (log ++ [.returned entry]) = takenEntries log := by
    rw [takenEntries_append]
    exact List.append_nil _
  constructor
  case began =>
    intro other member
    rw [taken]
    exact working.began other ((began other).mp member)
  case held =>
    intro other holds
    rcases holds with popped | published
    · cases popped
    · cases published
  case running => exact fun other running => by cases running
  case returned =>
    intro other member
    rw [began]
    rcases List.mem_append.mp member with old | new
    · exact working.returned other old
    · cases List.mem_singleton.mp new
      exact (working.running entry running).1
  case notified =>
    intro other
    have old := working.notified other
    cases owner : entry.owner with
    | dispatcher =>
        simp only [List.mem_cons, old, List.mem_append, List.not_mem_nil, or_false,
          Event.returned.injEq]
        constructor
        · rintro (rfl | ⟨own, before⟩)
          · exact ⟨owner, .inr rfl⟩
          · exact ⟨own, .inl before⟩
        · rintro ⟨own, before | same⟩
          · exact .inr ⟨own, before⟩
          · exact .inl same
    | object id =>
        simp only [old, List.mem_append, List.mem_singleton, Event.returned.injEq]
        constructor
        · rintro ⟨own, before⟩
          exact ⟨own, .inl before⟩
        · rintro ⟨own, before | same⟩
          · exact ⟨own, before⟩
          · rw [same, owner] at own
            cases own
  case once =>
    intro other
    have none : List.count (.began other) [Event.returned entry] = 0 :=
      List.count_eq_zero.mpr (by simp)
    rw [List.count_append, none, Nat.add_zero]
    exact working.once other

theorem Working.step (working : Working log state) (queued : Queued log state)
    (step : Step state label events state') : Working (log ++ events) state' := by
  cases step with
  | @taken now entry rest waiting alive front due =>
      apply working.taken
      intro gone
      have single := queued.single
      rw [List.map_append, List.nodup_append] at single
      have listed : entry ∈ state.queue := by simp [front]
      exact single.2.2 _ (List.mem_map_of_mem gone) _ (List.mem_map_of_mem listed) rfl
  | @published now entry popped =>
      rw [List.append_nil]
      apply working.moves
      · rintro other (holds | holds)
        · cases holds
        · cases holds
          exact working.held entry (.inl popped)
      · simp
  | began published known => exact working.begins published
  | returned running => exact working.returns running
  | skipped published unknown =>
      rw [List.append_nil]
      exact working.moves (by simp) (by simp)
  | unset finished =>
      rw [List.append_nil]
      exact working.moves (by simp) (by simp)
  | stopped waiting exits =>
      rw [List.append_nil]
      exact working.moves (by simp) (by simp)
  | @detachedInline object cleanup ready known =>
      have idle : Idle (.detached .worker object :: if cleanup then [.cleaned object] else []) := by
        cases cleanup <;> simp [Idle]
      exact working.idle rfl rfl idle
  | refused ready => exact working.idle rfl rfl idle_nil
  | terminated ready => exact working.idle rfl rfl idle_nil
  | joined waits stopped => exact working.idle rfl rfl idle_nil
  | _ => exact working.idle rfl rfl (idle_one (by simp))

theorem run_working {permitted : State → Label → Prop}
    (run : Run system permitted initial log state) : Working log state := by
  induction run with
  | refl => exact initial_working
  | next run _ step ih => exact ih.step (run_queued run) (step_of_eq_some step)

/-! ## Where the function of a `detach` is -/

structure Placing (log : List Event) (state : State) : Prop where
  taken : ∀ entry ∈ takenEntries log, entry.owner = .dispatcher →
    state.Holds entry ∨ state.worker = .running entry ∨ .returned entry ∈ log
  internal : ∀ entry, .enqueued entry ∈ log → entry.owner = .dispatcher →
    entry.when = whenInternalDetached
  awaited : ∀ number object entry, state.threads number = .awaiting object entry →
    .enqueued entry ∈ log ∧ entry.owner = .dispatcher

theorem initial_placing : Placing [] initial where
  taken := by simp [takenEntries]
  internal := by simp
  awaited := by simp [initial]

/-- The worker goes on with what it has taken. -/
theorem Step.goesOn (step : Step state label events state') (own : entry.owner = .dispatcher)
    (holds : state.Holds entry ∨ state.worker = .running entry ∨ .returned entry ∈ log) :
    state'.Holds entry ∨ state'.worker = .running entry ∨ .returned entry ∈ log ++ events := by
  have done : .returned entry ∈ log → .returned entry ∈ log ++ events := List.mem_append_left _
  have still : state'.worker = state.worker → state'.Holds entry ∨ state'.worker = .running entry ∨
      .returned entry ∈ log ++ events := by
    intro same
    rw [State.Holds, same]
    exact holds.imp_right fun rest => rest.imp_right done
  have elsewhere : ∀ {worker : Worker}, state.worker = worker → worker ≠ .popped entry →
      worker ≠ .published entry → worker ≠ .running entry → .returned entry ∈ log := by
    rintro worker rfl popped published running
    rcases holds with (held | held) | held | returned
    · exact absurd held popped
    · exact absurd held published
    · exact absurd held running
    · exact returned
  cases step with
  | stopped waiting exits => exact .inr (.inr (done (elsewhere waiting (by simp) (by simp) (by simp))))
  | taken waiting alive front due =>
      exact .inr (.inr (done (elsewhere waiting (by simp) (by simp) (by simp))))
  | @published now other popped =>
      by_cases same : other = entry
      · exact .inl (.inr (by rw [same]))
      · exact .inr (.inr (done (elsewhere popped (by simpa using same) (by simp) (by simp))))
  | @began now other published known =>
      by_cases same : other = entry
      · exact .inr (.inl (by rw [same]))
      · exact .inr (.inr (done (elsewhere published (by simp) (by simpa using same) (by simp))))
  | @skipped now other published unknown =>
      have different : other ≠ entry := by
        rintro rfl
        rw [own] at unknown
        cases unknown
      exact .inr (.inr (done (elsewhere published (by simp) (by simpa using different) (by simp))))
  | @returned now other running =>
      by_cases same : other = entry
      · exact .inr (.inr (by simp [same]))
      · exact .inr (.inr (done (elsewhere running (by simp) (by simp) (by simpa using same))))
  | unset finished => exact .inr (.inr (done (elsewhere finished (by simp) (by simp) (by simp))))
  | _ => exact still rfl

theorem Placing.step (placing : Placing log state)
    (step : Step state label events state') : Placing (log ++ events) state' := by
  have old : ∀ {entry}, .enqueued entry ∈ log → .enqueued entry ∈ log ++ events :=
    List.mem_append_left _
  constructor
  case taken =>
    intro entry member own
    rw [takenEntries_append] at member
    rcases List.mem_append.mp member with gone | new
    · exact step.goesOn own (placing.taken entry gone own)
    · cases step.queue with
      | kept queue serial aside => simp [aside.takenEntries] at new
      | added owner when queue serial same => simp [same, takenEntries, Event.taken?] at new
      | erased object queue serial noted aside => simp [aside.takenEntries] at new
      | taken queue serial due same =>
          cases step with
          | taken waiting alive front due =>
              cases List.mem_singleton.mp new
              exact .inl (.inl rfl)
          | detachedInline => cases (List.cons.inj same).1
          | _ => cases same
  case internal =>
    intro entry member own
    rcases List.mem_append.mp member with before | new
    · exact placing.internal entry before own
    · cases step with
      | enqueued ready known alive =>
          cases List.mem_singleton.mp new
          cases own
      | scheduled waits unused alive =>
          cases List.mem_singleton.mp new
          rfl
      | @detachedInline _ cleanup => cases cleanup <;> simp at new
      | _ => simp at new
  case awaited =>
    intro number object entry waits
    have kept : ∀ {other : Nat} {thread : Thread} {state : State},
        (state.setThread other thread).threads number = .awaiting object entry →
        thread = .awaiting object entry ∨ state.threads number = .awaiting object entry := by
      intro other thread state waits
      by_cases same : number = other
      · rw [same, setThread_self] at waits
        exact .inl waits
      · rw [setThread_of_ne same] at waits
        exact .inr waits
    have before : state.threads number = .awaiting object entry →
        .enqueued entry ∈ log ++ events ∧ entry.owner = .dispatcher :=
      fun waits => (placing.awaited number object entry waits).imp_left old
    cases step with
    | scheduled waits' unused alive =>
        rcases kept waits with new | waits
        · cases new
          exact ⟨by simp, rfl⟩
        · exact before waits
    | detached ready known =>
        rcases kept waits with new | waits
        · cases new
        · exact before waits
    | terminated ready =>
        rcases kept waits with new | waits
        · cases new
        · exact before waits
    | left waits' unused plain =>
        rcases kept waits with new | waits
        · cases new
        · exact before waits
    | notified waits' done =>
        rcases kept waits with new | waits
        · cases new
        · exact before waits
    | joined waits' stopped =>
        rcases kept waits with new | waits
        · cases new
        · exact before waits
    | _ => exact before waits

theorem run_placing {permitted : State → Label → Prop}
    (run : Run system permitted initial log state) : Placing log state := by
  induction run with
  | refl => exact initial_placing
  | next _ _ step ih => exact ih.step (step_of_eq_some step)

/-! ## The thread that waits -/

/-- While a function of the dispatcher itself is queued, the worker is never without work. -/
theorem works_on (queued : Queued log state) (placing : Placing log state)
    (enqueued : .enqueued entry ∈ log) (own : entry.owner = .dispatcher)
    (pending : .returned entry ∉ log) (alive : state.worker ≠ .stopped) (now : Nat) :
    (system.step? state (.worker now)).isSome = true := by
  simp only [system, step?, work?]
  cases worker : state.worker with
  | waiting =>
      dsimp only
      split
      · rfl
      · have waits : entry ∈ state.queue := by
          obtain ⟨before, after, split⟩ := List.append_of_mem enqueued
          rcases queued.accounted before entry after split with waits | ⟨now, taken⟩ | detached
          · exact waits
          · have gone : entry ∈ takenEntries log := by
              rw [split]
              refine List.mem_filterMap.mpr ⟨.taken entry now, ?_, rfl⟩
              exact List.mem_append_right _ (List.mem_cons_of_mem _ taken)
            rcases placing.taken entry gone own with (held | held) | running | returned
            · simp [worker] at held
            · simp [worker] at held
            · simp [worker] at running
            · exact absurd returned pending
          · obtain ⟨_, _, other, _⟩ := detached
            rw [own] at other
            cases other
        have time := placing.internal entry enqueued own
        have ordered := queued.ordered
        cases queue : state.queue with
        | nil => simp [queue] at waits
        | cons front rest =>
            -- nothing but a function of the same kind is in front of it
            have due : front.when ≤ entry.when := by
              rw [queue] at waits ordered
              rcases List.mem_cons.mp waits with rfl | later
              · exact Nat.le_refl _
              · exact ((List.pairwise_cons.mp ordered).1 entry later).le
            have early : front.when ≤ max whenImmediately now := by
              rw [time] at due
              exact due.trans (Nat.zero_le _)
            simp [early]
  | published held =>
      dsimp only
      split <;> rfl
  | stopped => exact absurd worker alive
  | _ => rfl

/-- Without the worker a thread goes on waiting for the function that has not returned. -/
theorem Step.stays_stuck (step : Step state label events state')
    (stopped : state.worker = .stopped) (pending : entry ∉ state.notified)
    (waits : state.threads number = .awaiting object entry) :
    state'.worker = .stopped ∧ entry ∉ state'.notified ∧
      state'.threads number = .awaiting object entry := by
  have other : ∀ {other : Nat} {thread : Thread}, state.threads other ≠ .awaiting object entry →
      (state.setThread other thread).threads number = .awaiting object entry := by
    intro other thread free
    rw [setThread_of_ne]
    · exact waits
    · rintro rfl
      exact free waits
  have idle : ∀ {other : Nat}, state.isReady (.thread other) = true →
      state.threads other ≠ .awaiting object entry := by
    intro other ready same
    simp [State.isReady, same] at ready
  cases step with
  | refused ready => exact ⟨stopped, pending, waits⟩
  | attached ready alive => exact ⟨stopped, pending, waits⟩
  | enqueued ready known alive => exact ⟨stopped, pending, waits⟩
  | detached ready known => exact ⟨stopped, pending, other (idle ready)⟩
  | detachedInline ready known => exact ⟨stopped, pending, waits⟩
  | terminated ready => exact ⟨stopped, pending, other (idle ready)⟩
  | left waits' unused plain => exact ⟨stopped, pending, other (by simp [waits'])⟩
  | scheduled waits' unused alive => exact ⟨stopped, pending, other (by simp [waits'])⟩
  | notified waits' done =>
      refine ⟨stopped, pending, other fun same => ?_⟩
      rw [waits'] at same
      cases same
      exact pending done
  | joined waits' stopped' => exact ⟨stopped, pending, other (by simp [waits'])⟩
  | stopped waiting => simp [stopped] at waiting
  | taken waiting => simp [stopped] at waiting
  | published popped => simp [stopped] at popped
  | began published => simp [stopped] at published
  | skipped published => simp [stopped] at published
  | returned running => simp [stopped] at running
  | unset finished => simp [stopped] at finished

/-- A thread in `detach` that waits for the function it was given. -/
structure Awaited (log : List Event) (state : State) (number object : Nat) (entry : Entry) :
    Prop where
  once : log.count (.began entry) ≤ 1
  /-- It goes on when the function has returned, and not before. -/
  returns : (system.step? state (.proceed number)).isSome = true ↔
    .began entry ∈ log ∧ .returned entry ∈ log
  /-- Until then the worker has a step to make, whatever the time source says. -/
  worked : .returned entry ∉ log → state.worker ≠ .stopped →
    ∀ now, (system.step? state (.worker now)).isSome = true
  /-- If the dispatcher is terminated first, the thread waits forever. -/
  stuck : .returned entry ∉ log → state.worker = .stopped →
    ∀ log' state', Run system (fun _ _ => True) state log' state' →
      state'.threads number = .awaiting object entry

/-- A function given to `detach` runs once, and `detach` returns exactly when it has run. -/
theorem detach_awaits_cleanup {log : List Event} {state : State} {number object : Nat}
    {entry : Entry} (run : Run system (fun _ _ => True) initial log state)
    (waits : state.threads number = .awaiting object entry) :
    Awaited log state number object entry := by
  have queued := run_queued run
  have working := run_working run
  have placing := run_placing run
  obtain ⟨enqueued, own⟩ := placing.awaited number object entry waits
  have told := working.notified entry
  constructor
  case once => exact working.once entry
  case returns =>
    have proceeds : (system.step? state (.proceed number)).isSome = true ↔
        entry ∈ state.notified := by
      simp only [system, step?, proceed?, waits]
      split
      case isTrue done => simp [done]
      case isFalse waiting => simp [waiting]
    rw [proceeds, told]
    constructor
    · rintro ⟨_, returned⟩
      exact ⟨working.returned entry returned, returned⟩
    · rintro ⟨_, returned⟩
      exact ⟨own, returned⟩
  case worked =>
    intro pending alive now
    exact works_on queued placing enqueued own pending alive now
  case stuck =>
    intro pending stopped log' state' later
    have stays : state'.worker = .stopped ∧ entry ∉ state'.notified ∧
        state'.threads number = .awaiting object entry := by
      induction later with
      | refl => exact ⟨stopped, fun done => pending (told.mp done).2, waits⟩
      | next _ _ step ih =>
          obtain ⟨stopped, pending, waits⟩ := ih
          exact (step_of_eq_some step).stays_stuck stopped pending waits
    exact stays.2.2

/-- `terminate` comes before the worker takes the function, and the thread is stuck. -/
theorem detach_awaits_cleanup_terminated :
    ∃ log state, Run system (fun _ _ => True) initial log state ∧
      state.threads 0 = .awaiting 7 ⟨.dispatcher, whenInternalDetached, 1⟩ ∧
      ∀ log' state', Run system (fun _ _ => True) state log' state' →
        state'.threads 0 = .awaiting 7 ⟨.dispatcher, whenInternalDetached, 1⟩ := by
  let labels : List Label :=
    [.call (.thread 0) (.attach 7), .call (.thread 0) (.detach 7 true), .proceed 0,
      .call (.thread 1) .terminate, .worker 0]
  have possible : (Run.steps? system (fun _ _ => True) initial labels).isSome = true := by
    decide +kernel
  let reached := Run.result system (fun _ _ => True) initial labels
  have seen : reached.1.threads 0 = .awaiting 7 ⟨.dispatcher, whenInternalDetached, 1⟩ ∧
      reached.1.worker = .stopped ∧
      .returned ⟨.dispatcher, whenInternalDetached, 1⟩ ∉ reached.2 := by decide +kernel
  have run : Run system (fun _ _ => True) initial reached.2 reached.1 := Run.of_isSome possible
  clear possible
  clear_value reached
  obtain ⟨waits, stopped, pending⟩ := seen
  exact ⟨reached.2, reached.1, run, waits, (detach_awaits_cleanup run waits).stuck pending stopped⟩

end UnixDomainStream.Dispatcher
