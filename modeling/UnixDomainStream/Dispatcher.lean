import Mathlib.Logic.Function.Basic
import UnixDomainStream.Library.StableQueue
import UnixDomainStream.Library.Transition

/-!
# The dispatcher

`pqrs/dispatcher/dispatcher.hpp`.  Functions wait in one queue, ordered by their time points,
and a worker thread runs them one at a time.  Any thread may attach and detach objects, enqueue
functions of attached objects and terminate the dispatcher; so may a function that the worker
runs.  Each step is what a thread does under its locks, but a `detach` enqueues its function in
the step in which its wait ends: between the steps of the worker, and of a `detach` that waits,
any other thread may act.
-/

namespace UnixDomainStream.Dispatcher

open Library

/-- Whose a function is: an object's, or the dispatcher's own, which is never detached. -/
inductive Owner where
  | dispatcher
  | object (id : Nat)
  deriving DecidableEq, Repr

/-- A function in the queue.  `serial` tells the functions apart, in the order of the calls of
`enqueue`; `when` counts milliseconds since the epoch. -/
structure Entry where
  owner : Owner
  when : Nat
  serial : Nat
  deriving DecidableEq, Repr

/-- `when_internal_detached()` -/
def whenInternalDetached : Nat := 0

/-- `when_immediately()` -/
def whenImmediately : Nat := 1

/-- Where `run_worker` is. -/
inductive Worker where
  | waiting
  /-- The entry is taken from the queue, and `mutex_` is released. -/
  | popped (entry : Entry)
  /-- `running_function_object_id_` is set. -/
  | published (entry : Entry)
  /-- The object was found attached, and its function is in progress. -/
  | running (entry : Entry)
  /-- `call_function()` has returned; `running_function_object_id_` is still set. -/
  | finished (entry : Entry)
  | stopped
  deriving DecidableEq, Repr

/-- `running_function_object_id_` -/
def Worker.runningFunctionObjectId : Worker → Option Owner
  | .published entry => some entry.owner
  | .running entry => some entry.owner
  | .finished entry => some entry.owner
  | _ => none

/-- What a thread other than the worker waits for. -/
inductive Thread where
  | idle
  /-- `detach` has erased the object and waits for its running function. -/
  | detaching (object : Nat) (cleanup : Bool)
  /-- `detach` waits for the function that it was given, which is queued as the entry. -/
  | awaiting (object : Nat) (entry : Entry)
  /-- `terminate` joins the worker. -/
  | joining
  deriving DecidableEq, Repr

structure State where
  /-- `object_ids_` -/
  attached : Nat → Bool := fun _ => false
  queue : List Entry := []
  exit : Bool := false
  worker : Worker := .waiting
  threads : Nat → Thread := fun _ => .idle
  /-- The serial number of the last entry. -/
  serial : Nat := 0
  /-- The cleanup functions that have called `notify()`. -/
  notified : List Entry := []

/-- Who calls: a thread, or the function that the worker runs. -/
inductive Caller where
  | thread (number : Nat)
  | worker
  deriving DecidableEq, Repr

inductive Operation where
  | attach (object : Nat)
  | enqueue (object : Nat) (when : Nat)
  /-- With or without a function. -/
  | detach (object : Nat) (cleanup : Bool)
  | terminate
  deriving DecidableEq, Repr

inductive Label where
  | call (caller : Caller) (operation : Operation)
  /-- A thread that waits goes on. -/
  | proceed (number : Nat)
  /-- The worker takes its next step; `now` is what the time source says. -/
  | worker (now : Nat)
  deriving DecidableEq, Repr

inductive Event where
  | attached (object : Nat)
  | enqueued (entry : Entry)
  | detached (caller : Caller) (object : Nat)
  /-- The worker takes the entry from the queue at the time `now`. -/
  | taken (entry : Entry) (now : Nat)
  /-- The function of the entry begins, and returns. -/
  | began (entry : Entry)
  | returned (entry : Entry)
  /-- `detach` runs its function itself, in the function that the worker runs. -/
  | cleaned (object : Nat)
  /-- `detach` returns to the thread. -/
  | detachReturned (number : Nat) (object : Nat)
  deriving DecidableEq, Repr

/-- An owner that the check of a queued function finds attached. -/
def State.isAttached (state : State) : Owner → Bool
  | .dispatcher => true
  | .object id => state.attached id

/-- A thread calls when it waits for nothing; the worker calls from a function that it runs. -/
def State.isReady (state : State) : Caller → Bool
  | .thread number => decide (state.threads number = .idle)
  | .worker =>
      match state.worker with
      | .running _ => true
      | _ => false

/-- The entry that `enqueue` makes. -/
def State.entry (owner : Owner) (when : Nat) (state : State) : Entry :=
  { owner, when, serial := state.serial + 1 }

/-- `enqueue`, under its locks. -/
def State.enqueue (owner : Owner) (when : Nat) (state : State) : State × List Event :=
  if !state.isAttached owner then (state, [])
  else if state.exit then (state, [])
  else
    let entry := state.entry owner when
    let queue :=
      if when = whenInternalDetached then entry :: state.queue
      else insertBehind Entry.when entry state.queue
    ({ state with queue, serial := state.serial + 1 }, [.enqueued entry])

/-- The first part of `detach`, which erases the object and its functions. -/
def State.erase (object : Nat) (state : State) : State :=
  { state with
    attached := Function.update state.attached object false
    queue := state.queue.filter fun entry => entry.owner ≠ .object object }

def State.setThread (number : Nat) (thread : Thread) (state : State) : State :=
  { state with threads := Function.update state.threads number thread }

def call? (state : State) (caller : Caller) : Operation → Option (State × List Event)
  | .attach object =>
      if state.exit then some (state, [])
      else
        some ({ state with attached := Function.update state.attached object true },
          [.attached object])
  | .enqueue object when => some (state.enqueue (.object object) when)
  | .detach object cleanup =>
      if !state.attached object then some (state, [])
      else
        match caller with
        | .thread number =>
            some ((state.erase object).setThread number (.detaching object cleanup),
              [.detached caller object])
        | .worker =>
            some (state.erase object,
              .detached caller object :: if cleanup then [.cleaned object] else [])
  | .terminate =>
      match caller with
      | .thread number => some ({ state with exit := true }.setThread number .joining, [])
      -- `abort()`
      | .worker => none

/-- A thread that waits goes on, if it can. -/
def proceed? (state : State) (number : Nat) : Option (State × List Event) :=
  match state.threads number with
  | .idle => none
  | .detaching object cleanup =>
      if state.worker.runningFunctionObjectId = some (.object object) then none
      else if !cleanup || state.exit then
        some (state.setThread number .idle, [.detachReturned number object])
      else
        let (next, events) := state.enqueue .dispatcher whenInternalDetached
        let entry := state.entry .dispatcher whenInternalDetached
        some (next.setThread number (.awaiting object entry), events)
  | .awaiting object entry =>
      if entry ∈ state.notified then
        some (state.setThread number .idle, [.detachReturned number object])
      else none
  | .joining => if state.worker = .stopped then some (state.setThread number .idle, []) else none

/-- One step of `run_worker`. -/
def work? (state : State) (now : Nat) : Option (State × List Event) :=
  match state.worker with
  | .waiting =>
      if state.exit then some ({ state with worker := .stopped }, [])
      else
        match state.queue with
        | [] => none
        | entry :: rest =>
            if entry.when ≤ max whenImmediately now then
              some ({ state with queue := rest, worker := .popped entry }, [.taken entry now])
            else none
  | .popped entry => some ({ state with worker := .published entry }, [])
  | .published entry =>
      if state.isAttached entry.owner then
        some ({ state with worker := .running entry }, [.began entry])
      else some ({ state with worker := .finished entry }, [])
  | .running entry =>
      some ({ state with
        worker := .finished entry
        notified := match entry.owner with
          | .dispatcher => entry :: state.notified
          | .object _ => state.notified }, [.returned entry])
  | .finished _ => some ({ state with worker := .waiting }, [])
  | .stopped => none

def step? (state : State) : Label → Option (State × List Event)
  | .call caller operation =>
      if state.isReady caller then call? state caller operation else none
  | .proceed number => proceed? state number
  | .worker now => work? state now

def system : System State Label Event where
  step? := step?

/-- No object is attached yet. -/
def initial : State := {}

/-- The state in which a further function is queued. -/
def State.queued (owner : Owner) (when : Nat) (state : State) : State :=
  { state with
    queue :=
      if when = whenInternalDetached then state.entry owner when :: state.queue
      else insertBehind Entry.when (state.entry owner when) state.queue
    serial := state.serial + 1 }

@[simp]
theorem setThread_self (number : Nat) (thread : Thread) (state : State) :
    (state.setThread number thread).threads number = thread :=
  Function.update_self ..

theorem setThread_of_ne {number other : Nat} (different : other ≠ number) (thread : Thread)
    (state : State) : (state.setThread number thread).threads other = state.threads other :=
  Function.update_of_ne different ..

@[simp]
theorem erase_self (object : Nat) (state : State) : (state.erase object).attached object = false :=
  Function.update_self ..

theorem erase_of_ne {object other : Nat} (different : other ≠ object) (state : State) :
    (state.erase object).attached other = state.attached other :=
  Function.update_of_ne different ..

/-- The kinds of step. -/
inductive Step (state : State) : Label → List Event → State → Prop where
  /-- A call that is refused, or has nothing to do. -/
  | refused {caller : Caller} {operation : Operation} (ready : state.isReady caller = true) :
      Step state (.call caller operation) [] state
  | attached {caller : Caller} {object : Nat} (ready : state.isReady caller = true)
      (alive : state.exit = false) :
      Step state (.call caller (.attach object)) [.attached object]
        { state with attached := Function.update state.attached object true }
  | enqueued {caller : Caller} {object when : Nat} (ready : state.isReady caller = true)
      (known : state.attached object = true) (alive : state.exit = false) :
      Step state (.call caller (.enqueue object when))
        [.enqueued (state.entry (.object object) when)] (state.queued (.object object) when)
  | detached {number object : Nat} {cleanup : Bool}
      (ready : state.isReady (.thread number) = true) (known : state.attached object = true) :
      Step state (.call (.thread number) (.detach object cleanup))
        [.detached (.thread number) object]
        ((state.erase object).setThread number (.detaching object cleanup))
  | detachedInline {object : Nat} {cleanup : Bool} (ready : state.isReady .worker = true)
      (known : state.attached object = true) :
      Step state (.call .worker (.detach object cleanup))
        (.detached .worker object :: if cleanup then [.cleaned object] else [])
        (state.erase object)
  | terminated {number : Nat} (ready : state.isReady (.thread number) = true) :
      Step state (.call (.thread number) .terminate) []
        ({ state with exit := true }.setThread number .joining)
  | left {number object : Nat} {cleanup : Bool}
      (waits : state.threads number = .detaching object cleanup)
      (unused : state.worker.runningFunctionObjectId ≠ some (.object object))
      (plain : cleanup = false ∨ state.exit = true) :
      Step state (.proceed number) [.detachReturned number object] (state.setThread number .idle)
  | scheduled {number object : Nat} (waits : state.threads number = .detaching object true)
      (unused : state.worker.runningFunctionObjectId ≠ some (.object object))
      (alive : state.exit = false) :
      Step state (.proceed number) [.enqueued (state.entry .dispatcher whenInternalDetached)]
        ((state.queued .dispatcher whenInternalDetached).setThread number
          (.awaiting object (state.entry .dispatcher whenInternalDetached)))
  | notified {number object : Nat} {entry : Entry}
      (waits : state.threads number = .awaiting object entry) (done : entry ∈ state.notified) :
      Step state (.proceed number) [.detachReturned number object] (state.setThread number .idle)
  | joined {number : Nat} (waits : state.threads number = .joining)
      (stopped : state.worker = .stopped) :
      Step state (.proceed number) [] (state.setThread number .idle)
  | stopped {now : Nat} (waiting : state.worker = .waiting) (exits : state.exit = true) :
      Step state (.worker now) [] { state with worker := .stopped }
  | taken {now : Nat} {entry : Entry} {rest : List Entry} (waiting : state.worker = .waiting)
      (alive : state.exit = false) (front : state.queue = entry :: rest)
      (due : entry.when ≤ max whenImmediately now) :
      Step state (.worker now) [.taken entry now]
        { state with queue := rest, worker := .popped entry }
  | published {now : Nat} {entry : Entry} (popped : state.worker = .popped entry) :
      Step state (.worker now) [] { state with worker := .published entry }
  | began {now : Nat} {entry : Entry} (published : state.worker = .published entry)
      (known : state.isAttached entry.owner = true) :
      Step state (.worker now) [.began entry] { state with worker := .running entry }
  | skipped {now : Nat} {entry : Entry} (published : state.worker = .published entry)
      (unknown : state.isAttached entry.owner = false) :
      Step state (.worker now) [] { state with worker := .finished entry }
  | returned {now : Nat} {entry : Entry} (running : state.worker = .running entry) :
      Step state (.worker now) [.returned entry]
        { state with
          worker := .finished entry
          notified := match entry.owner with
            | .dispatcher => entry :: state.notified
            | .object _ => state.notified }
  | unset {now : Nat} {entry : Entry} (finished : state.worker = .finished entry) :
      Step state (.worker now) [] { state with worker := .waiting }

theorem enqueue_of_attached {owner : Owner} {when : Nat} {state : State}
    (known : state.isAttached owner = true) (alive : state.exit = false) :
    state.enqueue owner when = (state.queued owner when, [.enqueued (state.entry owner when)]) := by
  simp [State.enqueue, known, alive, State.queued, State.entry]

theorem enqueue_of_refused {owner : Owner} {when : Nat} {state : State}
    (refused : state.isAttached owner = false ∨ state.exit = true) :
    state.enqueue owner when = (state, []) := by
  unfold State.enqueue
  rcases refused with unknown | exits
  · simp [unknown]
  · simp [exits]

theorem step_of_eq_some {state state' : State} {label : Label} {events : List Event}
    (step : system.step? state label = some (state', events)) :
    Step state label events state' := by
  cases label with
  | call caller operation =>
      simp only [system, step?] at step
      split at step
      case isFalse => cases step
      case isTrue ready =>
        cases operation with
        | attach object =>
            simp only [call?] at step
            split at step
            · cases step
              exact .refused ready
            case isFalse alive =>
              cases step
              exact .attached ready (by simpa using alive)
        | enqueue object when =>
            simp only [call?] at step
            by_cases known : state.isAttached (.object object) = true ∧ state.exit = false
            · rw [enqueue_of_attached known.1 known.2] at step
              cases step
              exact .enqueued ready known.1 known.2
            · rw [not_and_or, Bool.not_eq_true, Bool.not_eq_false] at known
              rw [enqueue_of_refused known] at step
              cases step
              exact .refused ready
        | detach object cleanup =>
            simp only [call?] at step
            split at step
            · cases step
              exact .refused ready
            case isFalse known =>
              have known' : state.attached object = true := by simpa using known
              cases caller with
              | thread number =>
                  cases step
                  exact .detached ready known'
              | worker =>
                  cases step
                  exact .detachedInline ready known'
        | terminate =>
            cases caller with
            | thread number =>
                cases step
                exact .terminated ready
            | worker => cases step
  | proceed number =>
      simp only [system, step?, proceed?] at step
      split at step
      · cases step
      case h_2 object cleanup waits =>
        split at step
        · cases step
        case isFalse unused =>
          split at step
          case isTrue plain =>
            cases step
            exact .left waits unused (by simpa using plain)
          case isFalse asked =>
            simp only [Bool.or_eq_true, Bool.not_eq_true', not_or, Bool.not_eq_false,
              Bool.not_eq_true] at asked
            rw [enqueue_of_attached rfl asked.2] at step
            cases step
            exact .scheduled (asked.1 ▸ waits) unused asked.2
      case h_3 object entry waits =>
        split at step
        case isTrue done =>
          cases step
          exact .notified waits done
        case isFalse => cases step
      case h_4 waits =>
        split at step
        case isTrue stopped =>
          cases step
          exact .joined waits stopped
        case isFalse => cases step
  | worker now =>
      simp only [system, step?, work?] at step
      split at step
      case h_1 waiting =>
        split at step
        case isTrue exits =>
          cases step
          exact .stopped waiting exits
        case isFalse alive =>
          split at step
          · cases step
          case h_2 entry rest front =>
            split at step
            case isTrue due =>
              cases step
              exact .taken waiting (by simpa using alive) front due
            case isFalse => cases step
      case h_2 entry popped =>
        cases step
        exact .published popped
      case h_3 entry published =>
        split at step
        case isTrue known =>
          cases step
          exact .began published known
        case isFalse unknown =>
          cases step
          exact .skipped published (by simpa using unknown)
      case h_4 entry running =>
        cases step
        exact .returned running
      case h_5 entry finished =>
        cases step
        exact .unset finished
      · cases step

end UnixDomainStream.Dispatcher
