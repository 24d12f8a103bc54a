import UnixDomainStream.Dispatcher.Order

/-!
# What detach guarantees

The worker publishes whose function it holds before it checks that the object is attached, and
`detach` erases the object before it looks at what is published.  So when `detach` has
returned to a thread, no function of the object is in progress, although the worker may still
hold one, and none begins before the object is attached again.  A function given to `detach`
runs once, and `detach` returns after it, unless the dispatcher is terminated.
-/

namespace UnixDomainStream.Dispatcher

open Library

/-- Calls that do not attach the object. -/
def Leaves (object : Nat) (_ : State) : Label → Prop
  | .call _ (.attach other) => other ≠ object
  | _ => True

instance (object : Nat) (state : State) : ∀ label, Decidable (Leaves object state label)
  | .call _ (.attach other) => inferInstanceAs (Decidable (other ≠ object))
  | .call _ (.enqueue _ _) => inferInstanceAs (Decidable True)
  | .call _ (.detach _ _) => inferInstanceAs (Decidable True)
  | .call _ .terminate => inferInstanceAs (Decidable True)
  | .proceed _ => inferInstanceAs (Decidable True)
  | .worker _ => inferInstanceAs (Decidable True)

variable {log log' events : List Event} {state state' : State} {label : Label}
variable {number object : Nat}

/-- No function of the object is in progress. -/
def State.Quiet (object : Nat) (state : State) : Prop :=
  ∀ entry, state.worker = .running entry → entry.owner ≠ .object object

theorem idle_of_ready (ready : state.isReady (.thread number) = true) :
    state.threads number = .idle := by
  simpa [State.isReady] using ready

/-- The object stays erased. -/
theorem Step.erased (step : Step state label events state') (permitted : Leaves object state label)
    (erased : state.attached object = false) : state'.attached object = false := by
  have again : ∀ other, (state.erase other).attached object = false := by
    intro other
    by_cases same : object = other
    · rw [same, erase_self]
    · rw [erase_of_ne same]
      exact erased
  cases step with
  | @attached caller other ready alive =>
      have different : other ≠ object := permitted
      dsimp only
      rw [Function.update_of_ne different.symm]
      exact erased
  | detached ready known => exact again _
  | detachedInline ready known => exact again _
  | _ => exact erased

/-- No function of an erased object begins. -/
theorem Step.quiet (step : Step state label events state') (erased : state.attached object = false)
    (quiet : state.Quiet object) : state'.Quiet object := by
  cases step with
  | @began now entry published known =>
      intro other running own
      cases running
      rw [own, State.isAttached, erased] at known
      cases known
  | taken waiting alive front due =>
      intro other running
      cases running
  | _ => first | exact quiet | exact fun other running => by cases running

theorem Step.not_began (step : Step state label events state')
    (erased : state.attached object = false) {entry : Entry} (begins : .began entry ∈ events) :
    entry.owner ≠ .object object := by
  intro own
  cases step with
  | began published known =>
      cases List.mem_singleton.mp begins
      rw [own, State.isAttached, erased] at known
      cases known
  | @detachedInline _ cleanup ready known => cases cleanup <;> simp at begins
  | _ => simp at begins

theorem quiet_of_unused
    (unused : state.worker.runningFunctionObjectId ≠ some (.object object)) :
    state.Quiet object := by
  intro entry running own
  apply unused
  rw [running, Worker.runningFunctionObjectId, own]

/-- A thread that waits in `detach` goes on waiting, or finds no function of the object
published. -/
theorem Step.waits (step : Step state label events state') {cleanup : Bool}
    (waits : state.threads number = .detaching object cleanup) :
    state'.threads number = .detaching object cleanup ∨ state'.Quiet object := by
  have busy : ∀ {other : Nat}, state.isReady (.thread other) = true → number ≠ other := by
    rintro other ready rfl
    simp [idle_of_ready ready] at waits
  have own : ∀ {other : Nat}, state.threads other ≠ .detaching object cleanup →
      number ≠ other := by
    rintro other different rfl
    exact different waits
  cases step with
  | detached ready known =>
      left
      rw [setThread_of_ne (busy ready)]
      exact waits
  | terminated ready =>
      left
      rw [setThread_of_ne (busy ready)]
      exact waits
  | @left other object' cleanup' waits' unused plain =>
      by_cases same : number = other
      · subst same
        rw [waits] at waits'
        cases waits'
        exact .inr (quiet_of_unused unused)
      · left
        rw [setThread_of_ne same]
        exact waits
  | @scheduled other object' waits' unused alive =>
      by_cases same : number = other
      · subst same
        rw [waits] at waits'
        cases waits'
        exact .inr (quiet_of_unused unused)
      · left
        rw [setThread_of_ne same]
        exact waits
  | notified waits' done =>
      left
      rw [setThread_of_ne (own (by simp [waits']))]
      exact waits
  | joined waits' stopped =>
      left
      rw [setThread_of_ne (own (by simp [waits']))]
      exact waits
  | _ => exact .inl waits

/-- An object that a thread has detached. -/
structure Withdrawn (number object : Nat) (state : State) : Prop where
  erased : state.attached object = false
  quiet : (∃ cleanup, state.threads number = .detaching object cleanup) ∨ state.Quiet object

theorem run_withdrawn {first last : State} (run : Run system (Leaves object) first log last)
    (start : Withdrawn number object first) : Withdrawn number object last := by
  induction run with
  | refl => exact start
  | next _ permitted step ih =>
      have step := step_of_eq_some step
      constructor
      case erased => exact step.erased permitted ih.erased
      case quiet =>
        rcases ih.quiet with ⟨cleanup, waits⟩ | quiet
        · exact (step.waits waits).imp_left fun waits => ⟨cleanup, waits⟩
        · exact .inr (step.quiet ih.erased quiet)

theorem run_quiet {first last : State} (run : Run system (Leaves object) first log last)
    (erased : first.attached object = false) (quiet : first.Quiet object) :
    last.attached object = false ∧ last.Quiet object ∧
      ∀ entry, .began entry ∈ log → entry.owner ≠ .object object := by
  induction run with
  | refl => exact ⟨erased, quiet, by simp⟩
  | next _ permitted step ih =>
      obtain ⟨erased, quiet, none⟩ := ih
      have step := step_of_eq_some step
      refine ⟨step.erased permitted erased, step.quiet erased quiet, fun entry member => ?_⟩
      rcases List.mem_append.mp member with old | new
      · exact none entry old
      · exact step.not_began erased new

/-- Once `detach` has seen that no function of the object is published, none is in progress and
none begins before the object is attached again, whatever the other threads do meanwhile. -/
theorem detach_quiesces {number object : Nat} {cleanup : Bool}
    {before called returned later : State} {log log' : List Event}
    (calls : system.step? before (.call (.thread number) (.detach object cleanup)) =
      some (called, [.detached (.thread number) object]))
    (waits : Run system (Leaves object) called log returned)
    (goes : ∀ cleanup, returned.threads number ≠ .detaching object cleanup)
    (continues : Run system (Leaves object) returned log' later) :
    returned.Quiet object ∧ later.Quiet object ∧
      ∀ entry, .began entry ∈ log' → entry.owner ≠ .object object := by
  have start : Withdrawn number object called := by
    cases step_of_eq_some calls with
    | detached ready known => exact ⟨erase_self object _, .inl ⟨cleanup, setThread_self ..⟩⟩
  have after := run_withdrawn waits start
  have quiet : returned.Quiet object := by
    rcases after.quiet with ⟨cleanup, waits⟩ | quiet
    · exact absurd waits (goes cleanup)
    · exact quiet
  exact ⟨quiet, (run_quiet continues after.erased quiet).2⟩

/-- The worker has taken a function of the object when `detach` returns, and skips it. -/
theorem detach_quiesces_popped :
    ∃ before called returned later log log',
      system.step? before (.call (.thread 0) (.detach 7 false)) =
        some (called, [.detached (.thread 0) 7]) ∧
      Run system (Leaves 7) called log returned ∧ .detachReturned 0 7 ∈ log ∧
      Run system (Leaves 7) returned log' later ∧
      returned.worker = .popped ⟨.object 7, 1, 1⟩ ∧ later.worker = .finished ⟨.object 7, 1, 1⟩ ∧
      later.Quiet 7 := by
  let labels : List Label :=
    [.call (.thread 0) (.attach 7), .call (.thread 0) (.enqueue 7 1), .worker 0]
  let before := Run.result system (fun _ _ => True) initial labels
  let calls : Label := .call (.thread 0) (.detach 7 false)
  let called := (system.step? before.1 calls).getD before
  have step : (system.step? before.1 calls).isSome = true := by decide +kernel
  have proceeds : (Run.steps? system (Leaves 7) called.1 [.proceed 0]).isSome = true := by
    decide +kernel
  let returned := Run.result system (Leaves 7) called.1 [.proceed 0]
  have works : (Run.steps? system (Leaves 7) returned.1 [.worker 0, .worker 0]).isSome = true := by
    decide +kernel
  let later := Run.result system (Leaves 7) returned.1 [.worker 0, .worker 0]
  have seen : called.2 = [.detached (.thread 0) 7] ∧ .detachReturned 0 7 ∈ returned.2 ∧
      returned.1.threads 0 = .idle ∧ returned.1.worker = .popped ⟨.object 7, 1, 1⟩ ∧
      later.1.worker = .finished ⟨.object 7, 1, 1⟩ := by decide +kernel
  have stepped : system.step? before.1 calls = some called :=
    (Option.getD_of_ne_none (Option.isSome_iff_ne_none.mp step) before).symm
  have first : Run system (Leaves 7) called.1 returned.2 returned.1 := Run.of_isSome proceeds
  have second : Run system (Leaves 7) returned.1 later.2 later.1 := Run.of_isSome works
  clear proceeds works step
  clear_value later returned called before
  obtain ⟨called, events⟩ := called
  obtain ⟨rfl, noted, idle, popped, skipped⟩ := seen
  have quiet := detach_quiesces stepped first (by simp [idle]) second
  exact ⟨before.1, called, returned.1, later.1, returned.2, later.2, stepped, first, noted, second,
    popped, skipped, quiet.2.1⟩

end UnixDomainStream.Dispatcher
