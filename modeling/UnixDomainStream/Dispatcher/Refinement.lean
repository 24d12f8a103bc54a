import Mathlib.Data.List.Perm.Basic
import UnixDomainStream.Dispatcher.Order
import UnixDomainStream.Library.Executor

/-!
# The dispatcher as two queues

What a user of the dispatcher may rely on: functions for immediate run are performed in the
order in which they were enqueued, a cleanup function before them, and functions with a later
time point when no other waits.  `detach` recalls the functions of an object from both queues.
Every run of the dispatcher is a run of these two queues.
-/

namespace UnixDomainStream.Dispatcher

open Library

/-- What the threads ask of the queues. -/
inductive Request where
  | enqueue (entry : Entry)
  | erase (object : Nat)
  deriving DecidableEq, Repr

/-- What can be seen of the queues. -/
inductive Record where
  | enqueued (entry : Entry)
  | erased (object : Nat)
  | performed (entry : Entry)
  deriving DecidableEq, Repr

abbrev Queues := Configuration Unit Unit Empty Entry

/-- The function need not wait for a time point. -/
def Entry.isImmediate (entry : Entry) : Bool := decide (entry.when ≤ whenImmediately)

/-- The function is not one of the object. -/
def Entry.isForeign (object : Nat) (entry : Entry) : Bool :=
  decide (entry.owner ≠ .object object)

/-- Any function may be enqueued, and those of any object erased; what is performed is noted. -/
def queues : Program Unit Unit Empty Entry Unit Unit Request Record where
  handle _ io _ _ := (io, {})
  perform _ entry _ := ((), { events := [.performed entry] })
  accept? state request :=
    match request with
    | .enqueue entry =>
        let next :=
          if entry.when = whenInternalDetached then { state with jobs := entry :: state.jobs }
          else if entry.when = whenImmediately then
            { state with jobs := state.jobs ++ [entry] }
          else { state with delayed := state.delayed ++ [entry] }
        some (next, [.enqueued entry])
    | .erase object =>
        some ({ state with
          jobs := state.jobs.filter (Entry.isForeign object)
          delayed := state.delayed.filter (Entry.isForeign object) }, [.erased object])

def noQueues : Queues := { io := (), dispatcher := () }

/-- What can be seen of the dispatcher's queue. -/
def Event.record? : Event → Option Record
  | .enqueued entry => some (.enqueued entry)
  | .detached _ object => some (.erased object)
  | .taken entry _ => some (.performed entry)
  | _ => none

def records (log : List Event) : List Record := log.filterMap Event.record?

/-- The one queue holds both: first the functions for immediate run, in order. -/
structure Refines (state : State) (abstract : Queues) : Prop where
  jobs : abstract.jobs = state.queue.filter Entry.isImmediate
  delayed : abstract.delayed.Perm (state.queue.filter fun entry => !entry.isImmediate)

theorem initial_refines : Refines initial noQueues where
  jobs := rfl
  delayed := .refl _

/-- A run of the two queues that shows the given events, to one that the state refines. -/
def Matched (abstract : Queues) (events : List Event) (state : State) : Prop :=
  ∃ abstract', Run queues.system (fun _ _ => True) abstract (records events) abstract' ∧
    Refines state abstract'

variable {state state' : State} {abstract : Queues} {events : List Event}

theorem matched_one (label : ExecutorLabel Unit Unit Request) {abstract' : Queues}
    {seen : List Record} (step : queues.system.step? abstract label = some (abstract', seen))
    (same : records events = seen) (refines : Refines state abstract') :
    Matched abstract events state := by
  have run : Run queues.system (fun _ _ => True) abstract ([] ++ seen) abstract' :=
    Run.refl.next trivial step
  refine ⟨abstract', ?_, refines⟩
  rw [same]
  exact run

namespace Refines

/-- Nothing happens to the queue, and nothing can be seen. -/
theorem kept (refines : Refines state abstract) (queue : state'.queue = state.queue)
    (unseen : records events = []) : Matched abstract events state' := by
  refine ⟨abstract, ?_, ?_⟩
  · rw [unseen]
    exact .refl
  · constructor
    · rw [queue]
      exact refines.jobs
    · rw [queue]
      exact refines.delayed

/-- The function goes to the position in one of the queues that it has in the one. -/
theorem added (refines : Refines state abstract) (ordered : state.queue.Pairwise Ahead)
    (owner : Owner) (when : Nat) (queue : state'.queue = (state.queued owner when).queue) :
    Matched abstract [.enqueued (state.entry owner when)] state' := by
  have time : (state.entry owner when).when = when := rfl
  refine matched_one (.input (.enqueue (state.entry owner when))) rfl rfl ?_
  rw [time]
  split
  case isTrue internal =>
    have own : (state.entry owner when).isImmediate = true := by
      apply decide_eq_true
      rw [time, internal]
      exact Nat.zero_le _
    have front : state'.queue = state.entry owner when :: state.queue := by
      rw [queue, State.queued, if_pos internal]
    constructor
    · rw [front, List.filter_cons_of_pos own, refines.jobs]
    · rw [front, List.filter_cons_of_neg (by simp [own])]
      exact refines.delayed
  case isFalse timed =>
    have behind : state'.queue =
        insertBehind Entry.when (state.entry owner when) state.queue := by
      rw [queue, State.queued, if_neg timed]
    split
    case isTrue immediate =>
      have own : (state.entry owner when).isImmediate = true := by
        apply decide_eq_true
        rw [time, immediate]
      constructor
      · rw [behind, filter_insertBehind ordered own, refines.jobs]
        intro other member
        rw [time, immediate]
        exact decide_eq_true_iff
      · rw [behind, filter_insertBehind_of_false (by simp [own])]
        exact refines.delayed
    case isFalse later =>
      have own : (state.entry owner when).isImmediate = false := by
        simp only [Entry.isImmediate, time, decide_eq_false_iff_not]
        simp only [whenInternalDetached, whenImmediately] at timed later ⊢
        omega
      constructor
      · rw [behind, filter_insertBehind_of_false own]
        exact refines.jobs
      · rw [behind]
        have perm := (insertBehind_perm Entry.when (state.entry owner when) state.queue).filter
          fun entry => !entry.isImmediate
        rw [List.filter_cons_of_pos (by simp [own])] at perm
        exact ((refines.delayed.append_right _).trans List.perm_append_comm).trans perm.symm

theorem erased (refines : Refines state abstract) {object : Nat}
    (queue : state'.queue = (state.erase object).queue)
    (seen : records events = [.erased object]) : Matched abstract events state' := by
  refine matched_one (.input (.erase object)) rfl seen ?_
  have filtered : state'.queue = state.queue.filter (Entry.isForeign object) := queue
  constructor
  · rw [filtered, List.filter_filter, refines.jobs, List.filter_filter]
    exact List.filter_congr fun entry _ => Bool.and_comm ..
  · rw [filtered, List.filter_filter]
    have perm := refines.delayed.filter (Entry.isForeign object)
    rw [List.filter_filter] at perm
    refine perm.trans (.of_eq ?_)
    exact List.filter_congr fun entry _ => Bool.and_comm ..

/-- A function at the front is the first of the queue for immediate run, or that queue is empty
and it is one of the delayed. -/
theorem taken (refines : Refines state abstract) (ordered : state.queue.Pairwise Ahead)
    {entry : Entry} {now : Nat} (queue : state.queue = entry :: state'.queue) :
    Matched abstract [.taken entry now] state' := by
  cases own : entry.isImmediate with
  | true =>
      have front : abstract.jobs = entry :: state'.queue.filter Entry.isImmediate := by
        rw [refines.jobs, queue, List.filter_cons_of_pos own]
      have performed : queues.system.step? abstract (.job ()) =
          some ({ abstract with jobs := state'.queue.filter Entry.isImmediate },
            [.performed entry]) := by
        simp [Program.system, Program.step?, Program.jobStep?, front, queues]
      apply matched_one (.job ()) performed rfl
      · constructor
        · rfl
        · have delayed := refines.delayed
          rw [queue, List.filter_cons_of_neg (by simp [own])] at delayed
          exact delayed
  | false =>
      have ahead : ∀ other ∈ state'.queue, entry.when ≤ other.when := by
        intro other member
        rw [queue] at ordered
        exact ((List.pairwise_cons.mp ordered).1 other member).le
      have none : state'.queue.filter Entry.isImmediate = [] := by
        apply List.filter_eq_nil_iff.mpr
        intro other member immediate
        have late : ¬ entry.when ≤ whenImmediately := of_decide_eq_false own
        exact late ((ahead other member).trans (of_decide_eq_true immediate))
      have idle : abstract.jobs = [] := by
        rw [refines.jobs, queue, List.filter_cons_of_neg (by simp [own]), none]
      have delayed := refines.delayed
      rw [queue, List.filter_cons_of_pos (by simp [own])] at delayed
      have member : entry ∈ abstract.delayed := delayed.symm.subset List.mem_cons_self
      obtain ⟨index, bound, at_index⟩ := List.mem_iff_getElem.mp member
      have due : abstract.delayed[index]? = some entry := by
        rw [List.getElem?_eq_getElem bound, at_index]
      have readied : queues.system.step? abstract (.delayed index) =
          some ({ abstract with jobs := [entry], delayed := abstract.delayed.eraseIdx index },
            []) := by
        simp [Program.system, Program.step?, Program.delayedStep?, idle, due]
      have performed : queues.system.step?
          { abstract with jobs := [entry], delayed := abstract.delayed.eraseIdx index } (.job ()) =
          some ({ abstract with jobs := [], delayed := abstract.delayed.eraseIdx index },
            [.performed entry]) := by
        simp [Program.system, Program.step?, Program.jobStep?, queues]
      refine ⟨_, (Run.refl.next trivial readied).next trivial performed, ?_, ?_⟩
      · exact none.symm
      · have perm : (entry :: abstract.delayed.eraseIdx index).Perm abstract.delayed := by
          have moved := List.getElem_cons_eraseIdx_perm bound
          rw [at_index] at moved
          exact moved
        exact (perm.trans delayed).cons_inv

end Refines

theorem Step.matched {label : Label} (step : Step state label events state')
    (refines : Refines state abstract) (ordered : state.queue.Pairwise Ahead) :
    Matched abstract events state' := by
  cases step with
  | refused ready => exact refines.kept rfl rfl
  | attached ready alive => exact refines.kept rfl rfl
  | @enqueued caller object when ready known alive =>
      exact refines.added ordered (.object object) when rfl
  | detached ready known => exact refines.erased rfl rfl
  | @detachedInline object cleanup ready known =>
      apply refines.erased rfl
      cases cleanup <;> rfl
  | terminated ready => exact refines.kept rfl rfl
  | left waits unused plain => exact refines.kept rfl rfl
  | scheduled waits unused alive => exact refines.added ordered .dispatcher _ rfl
  | notified waits done => exact refines.kept rfl rfl
  | joined waits stopped => exact refines.kept rfl rfl
  | stopped waiting exits => exact refines.kept rfl rfl
  | taken waiting alive front due => exact refines.taken ordered front
  | published popped => exact refines.kept rfl rfl
  | began published known => exact refines.kept rfl rfl
  | skipped published unknown => exact refines.kept rfl rfl
  | returned running => exact refines.kept rfl rfl
  | unset finished => exact refines.kept rfl rfl

/-! ## Which of the taken functions run -/

def Event.began? : Event → Option Entry
  | .began entry => some entry
  | _ => none

/-- The functions that have begun, in order. -/
def begunEntries (log : List Event) : List Entry := log.filterMap Event.began?

/-- A function that is taken and neither begun nor skipped. -/
def Worker.pending : Worker → List Entry
  | .popped entry => [entry]
  | .published entry => [entry]
  | _ => []

/-- The object of the function has been detached. -/
def Recalled (log : List Event) (entry : Entry) : Prop :=
  ∃ caller object, entry.owner = .object object ∧ .detached caller object ∈ log

/-- Only functions of attached objects are enqueued. -/
def Known (log : List Event) (state : State) : Prop :=
  ∀ entry, .enqueued entry ∈ log → state.isAttached entry.owner = true ∨ Recalled log entry

/-- The functions that are taken begin in the same order, but for those whose object is
detached in between. -/
structure Served (log : List Event) (state : State) : Prop where
  order : (begunEntries log ++ state.worker.pending).Sublist (takenEntries log)
  reason : ∀ entry ∈ takenEntries log,
    entry ∈ begunEntries log ∨ entry ∈ state.worker.pending ∨ Recalled log entry

variable {log : List Event} {label : Label}

theorem Recalled.append {entry : Entry} (recalled : Recalled log entry) (events : List Event) :
    Recalled (log ++ events) entry := by
  obtain ⟨caller, object, own, detached⟩ := recalled
  exact ⟨caller, object, own, List.mem_append_left _ detached⟩

theorem begunEntries_append (first second : List Event) :
    begunEntries (first ++ second) = begunEntries first ++ begunEntries second :=
  List.filterMap_append ..

theorem Known.append (known : Known log state)
    (kept : ∀ owner, state.isAttached owner = true → state'.isAttached owner = true ∨
      ∃ caller object, owner = .object object ∧ .detached caller object ∈ events)
    (new : ∀ entry, .enqueued entry ∈ events → state'.isAttached entry.owner = true) :
    Known (log ++ events) state' := by
  intro entry member
  rcases List.mem_append.mp member with old | added
  · rcases known entry old with attached | recalled
    · rcases kept entry.owner attached with still | ⟨caller, object, own, detached⟩
      · exact .inl still
      · exact .inr ⟨caller, object, own, List.mem_append_right _ detached⟩
    · exact .inr (recalled.append events)
  · exact .inl (new entry added)

/-- Only the functions of the erased object are no longer attached. -/
theorem Known.erased (known : Known log state) {caller : Caller} {object : Nat}
    (same : state'.attached = (state.erase object).attached)
    (noted : .detached caller object ∈ events) (new : ∀ entry, .enqueued entry ∉ events) :
    Known (log ++ events) state' := by
  refine known.append ?_ fun entry member => absurd member (new entry)
  intro owner attached
  cases owner with
  | dispatcher => exact .inl rfl
  | object other =>
      by_cases own : other = object
      · subst own
        exact .inr ⟨caller, other, rfl, noted⟩
      · refine .inl ?_
        change state'.attached other = true
        rw [same, erase_of_ne own]
        exact attached

theorem Known.step (known : Known log state) (step : Step state label events state') :
    Known (log ++ events) state' := by
  cases step with
  | @attached caller object ready alive =>
      refine known.append ?_ (by simp)
      intro owner attached
      cases owner with
      | dispatcher => exact .inl rfl
      | object other =>
          by_cases own : other = object
          · subst own
            exact .inl (Function.update_self ..)
          · exact .inl ((Function.update_of_ne own ..).trans attached)
  | @enqueued caller object when ready attached alive =>
      refine known.append (fun _ attached => .inl attached) ?_
      intro entry member
      cases List.mem_singleton.mp member
      exact attached
  | detached ready attached => exact known.erased rfl List.mem_cons_self (by simp)
  | @detachedInline object cleanup ready attached =>
      refine known.erased rfl List.mem_cons_self ?_
      cases cleanup <;> simp
  | @scheduled number object waits unused alive =>
      refine known.append (fun _ attached => .inl attached) ?_
      intro entry member
      cases List.mem_singleton.mp member
      rfl
  | _ => exact known.append (fun _ attached => .inl attached) (by simp)

namespace Served

/-- Neither the worker nor what it has taken and begun changes. -/
theorem kept (served : Served log state) (begun : begunEntries events = [])
    (taken : takenEntries events = []) (pending : state'.worker.pending = state.worker.pending) :
    Served (log ++ events) state' := by
  constructor
  · rw [begunEntries_append, begun, takenEntries_append, taken, pending, List.append_nil,
      List.append_nil]
    exact served.order
  · intro entry member
    rw [takenEntries_append, taken, List.append_nil] at member
    rw [begunEntries_append, begun, pending, List.append_nil]
    rcases served.reason entry member with ran | waits | recalled
    · exact .inl ran
    · exact .inr (.inl waits)
    · exact .inr (.inr (recalled.append events))

theorem taken (served : Served log state) {entry : Entry} {now : Nat}
    (waiting : state.worker = .waiting) (popped : state'.worker = .popped entry) :
    Served (log ++ [.taken entry now]) state' := by
  have one : takenEntries [.taken entry now] = [entry] := rfl
  have none : begunEntries [.taken entry now] = [] := rfl
  have idle : state.worker.pending = [] := by
    rw [waiting]
    rfl
  constructor
  · have order := served.order
    rw [idle, List.append_nil] at order
    rw [begunEntries_append, none, takenEntries_append, one, popped, List.append_nil]
    exact order.append (.refl _)
  · intro other member
    rw [takenEntries_append, one] at member
    rw [begunEntries_append, none, List.append_nil, popped]
    rcases List.mem_append.mp member with old | new
    · rcases served.reason other old with ran | waits | recalled
      · exact .inl ran
      · rw [idle] at waits
        cases waits
      · exact .inr (.inr (recalled.append _))
    · exact .inr (.inl new)

theorem began (served : Served log state) {entry : Entry}
    (published : state.worker = .published entry) (running : state'.worker = .running entry) :
    Served (log ++ [.began entry]) state' := by
  have one : begunEntries [.began entry] = [entry] := rfl
  have none : takenEntries [.began entry] = [] := rfl
  have idle : state'.worker.pending = [] := by
    rw [running]
    rfl
  constructor
  · have order := served.order
    rw [published, Worker.pending] at order
    rw [begunEntries_append, one, takenEntries_append, none, idle, List.append_nil,
      List.append_nil]
    exact order
  · intro other member
    rw [takenEntries_append, none, List.append_nil] at member
    rw [begunEntries_append, one]
    rcases served.reason other member with ran | waits | recalled
    · exact .inl (List.mem_append_left _ ran)
    · rw [published] at waits
      exact .inl (List.mem_append_right _ waits)
    · exact .inr (.inr (recalled.append _))

theorem skipped (served : Served log state) {entry : Entry}
    (published : state.worker = .published entry) (finished : state'.worker = .finished entry)
    (recalled : Recalled log entry) : Served (log ++ []) state' := by
  rw [List.append_nil]
  constructor
  · have idle : state'.worker.pending = [] := by
      rw [finished]
      rfl
    rw [idle, List.append_nil]
    exact (List.sublist_append_left _ _).trans served.order
  · intro other member
    rcases served.reason other member with ran | waits | gone
    · exact .inl ran
    · rw [published] at waits
      rw [List.mem_singleton.mp waits]
      exact .inr (.inr recalled)
    · exact .inr (.inr gone)

theorem step (served : Served log state) (queued : Queued log state) (known : Known log state)
    (step : Step state label events state') : Served (log ++ events) state' := by
  cases step with
  | taken waiting alive front due => exact served.taken waiting rfl
  | began published attached => exact served.began published rfl
  | @skipped now entry published unknown =>
      refine served.skipped published rfl ?_
      have waits : entry ∈ state.worker.pending := by
        rw [published]
        exact List.mem_singleton_self entry
      have taken : entry ∈ takenEntries log :=
        served.order.subset (List.mem_append_right _ waits)
      rcases known entry (queued.source entry taken) with attached | recalled
      · rw [unknown] at attached
        cases attached
      · exact recalled
  | published popped => exact served.kept rfl rfl (by rw [popped]; rfl)
  | returned running => exact served.kept rfl rfl (by rw [running]; rfl)
  | unset finished => exact served.kept rfl rfl (by rw [finished]; rfl)
  | stopped waiting exits => exact served.kept rfl rfl (by rw [waiting]; rfl)
  | @detachedInline object cleanup ready attached =>
      cases cleanup <;> exact served.kept rfl rfl rfl
  | _ => exact served.kept rfl rfl rfl

end Served

/-- What a run of the dispatcher is to its users. -/
structure Serves (log : List Event) (state : State) (abstract : Queues) : Prop where
  run : Run queues.system (fun _ _ => True) noQueues (records log) abstract
  refines : Refines state abstract
  served : Served log state

theorem run_known {permitted : State → Label → Prop}
    (run : Run system permitted initial log state) : Known log state := by
  induction run with
  | refl => simp [Known]
  | next _ _ step ih => exact ih.step (step_of_eq_some step)

theorem run_served {permitted : State → Label → Prop}
    (run : Run system permitted initial log state) : Served log state := by
  induction run with
  | refl => exact ⟨.refl _, by simp [takenEntries]⟩
  | next run _ step ih => exact ih.step (run_queued run) (run_known run) (step_of_eq_some step)

/-- Whatever the threads do, the dispatcher does what the two queues do, and the functions that
it takes begin in the same order, but for those whose object has been detached. -/
theorem dispatcher_serves (run : Run system (fun _ _ => True) initial log state) :
    ∃ abstract, Serves log state abstract := by
  obtain ⟨abstract, run', refines⟩ := Run.simulated initial_refines
    (fun before refines _ step =>
      (step_of_eq_some step).matched refines (run_queued before).ordered) run
  exact ⟨abstract, run', refines, run_served run⟩

/-- A delayed function waits for one that is enqueued later and for a cleanup function, and one
that was taken before its object is detached does not begin. -/
theorem dispatcher_serves_recalled :
    ∃ log state abstract, Run system (fun _ _ => True) initial log state ∧
      Serves log state abstract ∧
      takenEntries log = [⟨.object 7, 1, 2⟩, ⟨.dispatcher, 0, 4⟩, ⟨.object 8, 5, 1⟩] ∧
      begunEntries log = [⟨.dispatcher, 0, 4⟩, ⟨.object 8, 5, 1⟩] := by
  let labels : List Label :=
    [.call (.thread 0) (.attach 8), .call (.thread 1) (.attach 7),
      .call (.thread 0) (.enqueue 8 5), .call (.thread 1) (.enqueue 7 1),
      .call (.thread 0) (.enqueue 7 1), .worker 9, .call (.thread 1) (.detach 7 true),
      .proceed 1, .worker 9, .worker 9, .worker 9, .worker 9, .worker 9, .worker 9, .worker 9,
      .worker 9, .worker 9, .worker 9, .worker 9]
  have computed : (Run.steps? system (fun _ _ => True) initial labels).map
      (fun result => (takenEntries result.2, begunEntries result.2)) =
        some ([⟨.object 7, 1, 2⟩, ⟨.dispatcher, 0, 4⟩, ⟨.object 8, 5, 1⟩],
          [⟨.dispatcher, 0, 4⟩, ⟨.object 8, 5, 1⟩]) := by
    decide +kernel
  obtain ⟨⟨state, log⟩, ran, same⟩ := Option.map_eq_some_iff.mp computed
  obtain ⟨taken, begun⟩ := Prod.mk.inj same
  have run := Run.of_steps? ran
  obtain ⟨abstract, serves⟩ := dispatcher_serves run
  exact ⟨log, state, abstract, run, serves, taken, begun⟩

end UnixDomainStream.Dispatcher
