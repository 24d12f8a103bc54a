import UnixDomainStream.Dispatcher

/-!
# The order in which functions are taken

The queue is ordered by the time points.  Functions of one time point keep the order in which
they were enqueued, except those that `detach` puts in front.  So a function that is taken has
nothing in front of it: what was enqueued ahead of it has been taken before, or was erased with
its object.
-/

namespace UnixDomainStream.Dispatcher

open Library

/-- Functions of one time point run in the order in which they were enqueued; those with the
time point of `when_internal_detached()` run in the reverse order. -/
def Earlier (first second : Entry) : Prop :=
  if first.when = whenInternalDetached then second.serial < first.serial
  else first.serial < second.serial

/-- `first` is in front of `second` while both are queued. -/
def Ahead : Entry → Entry → Prop := Before Entry.when Earlier

theorem Ahead.asymm {first second : Entry} (ahead : Ahead first second) :
    ¬ Ahead second first := by
  apply Before.asymm ?_ ahead
  intro same tie tie'
  unfold Earlier at tie tie'
  rw [same] at tie
  split at tie
  case isTrue internal =>
    rw [if_pos internal] at tie'
    exact Nat.lt_asymm tie tie'
  case isFalse timed =>
    rw [if_neg timed] at tie'
    exact Nat.lt_asymm tie tie'

/-! ## What a step does to the queue -/

def Event.taken? : Event → Option Entry
  | .taken entry _ => some entry
  | _ => none

def Event.enqueued? : Event → Option Entry
  | .enqueued entry => some entry
  | _ => none

/-- The functions that the worker has taken, in order. -/
def takenEntries (log : List Event) : List Entry := log.filterMap Event.taken?

@[simp]
theorem takenEntries_append (first second : List Event) :
    takenEntries (first ++ second) = takenEntries first ++ takenEntries second :=
  List.filterMap_append ..

/-- Events that are about neither end of the queue. -/
def Aside (events : List Event) : Prop :=
  ∀ event ∈ events, event.taken? = none ∧ event.enqueued? = none

inductive QueueStep (state : State) (events : List Event) (state' : State) : Prop where
  | kept (queue : state'.queue = state.queue) (serial : state'.serial = state.serial)
      (aside : Aside events)
  | added (owner : Owner) (when : Nat) (queue : state'.queue = (state.queued owner when).queue)
      (serial : state'.serial = state.serial + 1)
      (events : events = [.enqueued (state.entry owner when)])
  | erased {caller : Caller} (object : Nat) (queue : state'.queue = (state.erase object).queue)
      (serial : state'.serial = state.serial) (noted : .detached caller object ∈ events)
      (aside : Aside events)
  | taken {entry : Entry} {now : Nat} (queue : state.queue = entry :: state'.queue)
      (serial : state'.serial = state.serial) (due : entry.when ≤ max whenImmediately now)
      (events : events = [.taken entry now])

theorem aside_nil : Aside [] := by simp [Aside]

theorem aside_one {event : Event} (other : event.taken? = none ∧ event.enqueued? = none) :
    Aside [event] := by
  intro other' member
  rw [List.mem_singleton.mp member]
  exact other

theorem Step.queue {state state' : State} {label : Label} {events : List Event}
    (step : Step state label events state') : QueueStep state events state' := by
  cases step with
  | refused ready => exact .kept rfl rfl aside_nil
  | attached ready alive => exact .kept rfl rfl (aside_one ⟨rfl, rfl⟩)
  | @enqueued caller object when ready known alive => exact .added (.object object) when rfl rfl rfl
  | @detached number object cleanup ready known =>
      exact .erased object rfl rfl List.mem_cons_self (aside_one ⟨rfl, rfl⟩)
  | @detachedInline object cleanup ready known =>
      refine .erased object rfl rfl List.mem_cons_self ?_
      intro event member
      rcases List.mem_cons.mp member with rfl | cleaned
      · exact ⟨rfl, rfl⟩
      · cases cleanup with
        | true =>
            rw [List.mem_singleton.mp cleaned]
            exact ⟨rfl, rfl⟩
        | false => cases cleaned
  | terminated ready => exact .kept rfl rfl aside_nil
  | left waits unused plain => exact .kept rfl rfl (aside_one ⟨rfl, rfl⟩)
  | scheduled waits unused alive => exact .added .dispatcher whenInternalDetached rfl rfl rfl
  | notified waits done => exact .kept rfl rfl (aside_one ⟨rfl, rfl⟩)
  | joined waits stopped => exact .kept rfl rfl aside_nil
  | stopped waiting exits => exact .kept rfl rfl aside_nil
  | taken waiting alive front due => exact .taken front rfl due rfl
  | published popped => exact .kept rfl rfl aside_nil
  | began published known => exact .kept rfl rfl (aside_one ⟨rfl, rfl⟩)
  | skipped published unknown => exact .kept rfl rfl aside_nil
  | returned running => exact .kept rfl rfl (aside_one ⟨rfl, rfl⟩)
  | unset finished => exact .kept rfl rfl aside_nil

/-! ## The queue in every run -/

/-- What has become of a function that was enqueued: it waits, it was taken, or it was erased
with its object. -/
def Accounted (state : State) (entry : Entry) (later : List Event) : Prop :=
  entry ∈ state.queue ∨ (∃ now, .taken entry now ∈ later) ∨
    ∃ caller object, entry.owner = .object object ∧ .detached caller object ∈ later

structure Queued (log : List Event) (state : State) : Prop where
  ordered : state.queue.Pairwise Ahead
  numbered : ∀ entry ∈ state.queue, entry.serial ≤ state.serial
  known : ∀ entry ∈ state.queue, .enqueued entry ∈ log
  fresh : ∀ entry, .enqueued entry ∈ log → entry.serial ≤ state.serial
  single : ((takenEntries log ++ state.queue).map Entry.serial).Nodup
  source : ∀ entry ∈ takenEntries log, .enqueued entry ∈ log
  accounted : ∀ before entry after, log = before ++ .enqueued entry :: after →
    Accounted state entry after

theorem initial_queued : Queued [] initial where
  ordered := .nil
  numbered := by simp [initial]
  known := by simp [initial]
  fresh := by simp
  single := by simp [initial, takenEntries]
  source := by simp [takenEntries]
  accounted := by simp

variable {log events : List Event} {state state' : State} {label : Label}

/-- A record that has others behind it is an old one, or one of the last step. -/
theorem split_append {event : Event} {before after : List Event}
    (same : log ++ events = before ++ event :: after) :
    (∃ rest, log = before ++ event :: rest ∧ after = rest ++ events) ∨
      ∃ front, events = front ++ event :: after := by
  rcases List.append_eq_append_iff.mp same with ⟨more, _, late⟩ | ⟨more, old, late⟩
  · exact .inr ⟨more, late⟩
  · cases more with
    | nil => exact .inr ⟨[], late.symm⟩
    | cons first rest =>
        obtain ⟨rfl, tail⟩ := List.cons.inj late
        exact .inl ⟨rest, old, tail⟩

theorem Aside.takenEntries (aside : Aside events) : takenEntries events = [] :=
  List.filterMap_eq_nil_iff.mpr fun event member => (aside event member).1

theorem Aside.not_enqueued (aside : Aside events) (entry : Entry) : .enqueued entry ∉ events := by
  intro member
  have none := (aside _ member).2
  cases none

/-- A function stays accounted for while nothing but the given step happens. -/
theorem Accounted.step {entry : Entry} {later : List Event} (accounted : Accounted state entry later)
    (queue : entry ∈ state.queue → Accounted state' entry (later ++ events)) :
    Accounted state' entry (later ++ events) := by
  rcases accounted with waits | ⟨now, taken⟩ | ⟨caller, object, own, detached⟩
  · exact queue waits
  · exact .inr (.inl ⟨now, List.mem_append_left _ taken⟩)
  · exact .inr (.inr ⟨caller, object, own, List.mem_append_left _ detached⟩)

theorem Queued.kept (queued : Queued log state) (queue : state'.queue = state.queue)
    (serial : state'.serial = state.serial) (aside : Aside events) :
    Queued (log ++ events) state' where
  ordered := queue ▸ queued.ordered
  numbered := queue ▸ serial ▸ queued.numbered
  known entry member := List.mem_append_left _ (queued.known entry (queue ▸ member))
  fresh entry member := by
    rcases List.mem_append.mp member with old | new
    · exact serial ▸ queued.fresh entry old
    · exact absurd new (aside.not_enqueued entry)
  single := by
    rw [takenEntries_append, aside.takenEntries, List.append_nil, queue]
    exact queued.single
  source entry member := by
    rw [takenEntries_append, aside.takenEntries, List.append_nil] at member
    exact List.mem_append_left _ (queued.source entry member)
  accounted before entry after same := by
    rcases split_append same with ⟨rest, old, rfl⟩ | ⟨front, new⟩
    · refine (queued.accounted before entry rest old).step fun waits => .inl (queue ▸ waits)
    · exact absurd (by simp [new]) (aside.not_enqueued entry)

theorem Queued.added (queued : Queued log state) {owner : Owner} {when : Nat}
    (queue : state'.queue = (state.queued owner when).queue)
    (serial : state'.serial = state.serial + 1) :
    Queued (log ++ [.enqueued (state.entry owner when)]) state' := by
  have mem : ∀ other, other ∈ state'.queue ↔
      other = state.entry owner when ∨ other ∈ state.queue := by
    intro other
    rw [queue, State.queued]
    dsimp only
    split
    · exact List.mem_cons
    · exact mem_insertBehind
  have later : ∀ other ∈ state.queue, other.serial < (state.entry owner when).serial :=
    fun other member => Nat.lt_succ_of_le (queued.numbered other member)
  have nothing : takenEntries [.enqueued (state.entry owner when)] = [] := rfl
  constructor
  case ordered =>
    rw [queue, State.queued]
    dsimp only
    split
    case isTrue internal =>
      refine pairwise_front queued.ordered fun other member => ?_
      have time : (state.entry owner when).when = whenInternalDetached := internal
      rcases Nat.eq_zero_or_pos other.when with zero | positive
      · refine .inr ⟨time.trans zero.symm, ?_⟩
        rw [Earlier, if_pos time]
        exact later other member
      · exact .inl (by rw [time]; exact positive)
    case isFalse timed =>
      refine pairwise_insertBehind queued.ordered fun other member same => ?_
      have time : other.when ≠ whenInternalDetached := by
        rw [same]
        exact timed
      rw [Earlier, if_neg time]
      exact later other member
  case numbered =>
    intro other member
    rw [serial]
    rcases (mem other).mp member with rfl | old
    · exact Nat.le_refl _
    · exact Nat.le_succ_of_le (queued.numbered other old)
  case known =>
    intro other member
    rcases (mem other).mp member with rfl | old
    · simp
    · exact List.mem_append_left _ (queued.known other old)
  case fresh =>
    intro other member
    rw [serial]
    rcases List.mem_append.mp member with old | new
    · exact Nat.le_succ_of_le (queued.fresh other old)
    · cases List.mem_singleton.mp new
      exact Nat.le_refl _
  case single =>
    rw [takenEntries_append, nothing, List.append_nil]
    have perm : (takenEntries log ++ state'.queue).Perm
        (state.entry owner when :: (takenEntries log ++ state.queue)) := by
      have inserted : state'.queue.Perm (state.entry owner when :: state.queue) := by
        rw [queue, State.queued]
        dsimp only
        split
        · exact .refl _
        · exact List.perm_orderedInsert ..
      exact (inserted.append_left _).trans List.perm_middle
    refine (perm.map Entry.serial).nodup_iff.mpr (List.nodup_cons.mpr ⟨?_, queued.single⟩)
    intro member
    obtain ⟨other, listed, same⟩ := List.mem_map.mp member
    have bounded : other.serial ≤ state.serial := by
      rcases List.mem_append.mp listed with gone | waits
      · exact queued.fresh other (queued.source other gone)
      · exact queued.numbered other waits
    have number : (state.entry owner when).serial = state.serial + 1 := rfl
    omega
  case source =>
    intro other member
    rw [takenEntries_append, nothing, List.append_nil] at member
    exact List.mem_append_left _ (queued.source other member)
  case accounted =>
    intro before other after same
    rcases split_append same with ⟨rest, old, rfl⟩ | ⟨front, new⟩
    · exact (queued.accounted before other rest old).step fun waits =>
        .inl ((mem other).mpr (.inr waits))
    · have own : other = state.entry owner when := by
        have member : .enqueued other ∈ [Event.enqueued (state.entry owner when)] := by
          rw [new]
          simp
        cases List.mem_singleton.mp member
        rfl
      exact .inl ((mem other).mpr (.inl own))

theorem Queued.erased (queued : Queued log state) {caller : Caller} {object : Nat}
    (queue : state'.queue = (state.erase object).queue) (serial : state'.serial = state.serial)
    (noted : .detached caller object ∈ events) (aside : Aside events) :
    Queued (log ++ events) state' := by
  have sublist : state'.queue.Sublist state.queue := by
    rw [queue]
    exact List.filter_sublist
  constructor
  case ordered => exact queued.ordered.sublist sublist
  case numbered => exact fun other member => serial ▸ queued.numbered other (sublist.subset member)
  case known =>
    exact fun other member => List.mem_append_left _ (queued.known other (sublist.subset member))
  case fresh =>
    intro other member
    rcases List.mem_append.mp member with old | new
    · exact serial ▸ queued.fresh other old
    · exact absurd new (aside.not_enqueued other)
  case single =>
    rw [takenEntries_append, aside.takenEntries, List.append_nil]
    exact queued.single.sublist ((List.Sublist.append_left sublist _).map _)
  case source =>
    intro other member
    rw [takenEntries_append, aside.takenEntries, List.append_nil] at member
    exact List.mem_append_left _ (queued.source other member)
  case accounted =>
    intro before other after same
    rcases split_append same with ⟨rest, old, rfl⟩ | ⟨front, new⟩
    · refine (queued.accounted before other rest old).step fun waits => ?_
      by_cases own : other.owner = .object object
      · exact .inr (.inr ⟨caller, object, own, List.mem_append_right _ noted⟩)
      · refine .inl ?_
        rw [queue]
        exact List.mem_filter.mpr ⟨waits, by simpa using own⟩
    · exact absurd (by simp [new]) (aside.not_enqueued other)

theorem Queued.taken (queued : Queued log state) {entry : Entry} {now : Nat}
    (queue : state.queue = entry :: state'.queue) (serial : state'.serial = state.serial) :
    Queued (log ++ [.taken entry now]) state' := by
  have waits : ∀ other ∈ state'.queue, other ∈ state.queue :=
    fun other member => queue ▸ List.mem_cons_of_mem _ member
  have one : takenEntries [.taken entry now] = [entry] := rfl
  constructor
  case ordered =>
    have ordered := queued.ordered
    rw [queue] at ordered
    exact (List.pairwise_cons.mp ordered).2
  case numbered => exact fun other member => serial ▸ queued.numbered other (waits other member)
  case known =>
    exact fun other member => List.mem_append_left _ (queued.known other (waits other member))
  case fresh =>
    intro other member
    rcases List.mem_append.mp member with old | new
    · exact serial ▸ queued.fresh other old
    · cases List.mem_singleton.mp new
  case single =>
    have single := queued.single
    rw [queue] at single
    rw [takenEntries_append, one, List.append_assoc]
    exact single
  case source =>
    intro other member
    rw [takenEntries_append, one] at member
    refine List.mem_append_left _ ?_
    rcases List.mem_append.mp member with old | new
    · exact queued.source other old
    · rw [List.mem_singleton.mp new]
      exact queued.known entry (by simp [queue])
  case accounted =>
    intro before other after same
    rcases split_append same with ⟨rest, old, rfl⟩ | ⟨front, new⟩
    · refine (queued.accounted before other rest old).step fun member => ?_
      rw [queue] at member
      rcases List.mem_cons.mp member with rfl | later
      · exact .inr (.inl ⟨now, by simp⟩)
      · exact .inl later
    · have member : .enqueued other ∈ [Event.taken entry now] := by simp [new]
      cases List.mem_singleton.mp member

theorem Queued.step (queued : Queued log state)
    (step : system.step? state label = some (state', events)) : Queued (log ++ events) state' := by
  cases (step_of_eq_some step).queue with
  | kept queue serial aside => exact queued.kept queue serial aside
  | added owner when queue serial own =>
      subst own
      exact queued.added queue serial
  | erased object queue serial noted aside => exact queued.erased queue serial noted aside
  | taken queue serial due own =>
      subst own
      exact queued.taken queue serial

theorem run_queued {permitted : State → Label → Prop}
    (run : Run system permitted initial log state) : Queued log state := by
  induction run with
  | refl => exact initial_queued
  | next _ _ step ih => exact ih.step step

/-! ## Nothing is overtaken -/

/-- What holds when the worker takes a function at the end of a run. -/
structure TakenInOrder (log : List Event) (entry : Entry) (now : Nat) : Prop where
  due : entry.when ≤ max whenImmediately now
  enqueued : .enqueued entry ∈ log
  once : entry ∉ takenEntries log
  /-- What was enqueued ahead of it has been taken, or was erased with its object. -/
  overtakes : ∀ before other after, log = before ++ .enqueued other :: after → Ahead other entry →
    (∃ now, .taken other now ∈ after) ∨
      ∃ caller object, other.owner = .object object ∧ .detached caller object ∈ after

/-- Whatever is enqueued, detached and terminated by whichever threads, a function is taken
once, not before its time, and not before a function that is ahead of it. -/
theorem dispatch_in_order {log : List Event} {state state' : State} {label : Label}
    {entry : Entry} {now : Nat} (run : Run system (fun _ _ => True) initial log state)
    (step : system.step? state label = some (state', [.taken entry now])) :
    TakenInOrder log entry now := by
  have queued := run_queued run
  cases (step_of_eq_some step).queue with
  | kept queue serial aside => cases (aside _ List.mem_cons_self).1
  | added owner when queue serial own => cases own
  | erased object queue serial noted aside => cases (aside _ List.mem_cons_self).1
  | taken queue serial due own =>
      cases own
      have front : entry ∈ state.queue := by simp [queue]
      refine ⟨due, queued.known entry front, ?_, ?_⟩
      · intro gone
        have single := queued.single
        rw [List.map_append, List.nodup_append] at single
        exact single.2.2 _ (List.mem_map_of_mem gone) _ (List.mem_map_of_mem front) rfl
      · intro before other after same ahead
        rcases queued.accounted before other after same with waits | gone
        · have ordered := queued.ordered
          rw [queue] at waits ordered
          rcases List.mem_cons.mp waits with rfl | later
          · exact absurd ahead ahead.asymm
          · exact absurd ((List.pairwise_cons.mp ordered).1 other later) ahead.asymm
        · exact gone

/-- A function for immediate run passes one with a later time point. -/
theorem dispatch_in_order_immediate :
    ∃ log state state', Run system (fun _ _ => True) initial log state ∧
      .enqueued ⟨.object 7, 5, 1⟩ ∈ log ∧
      system.step? state (.worker 9) = some (state', [.taken ⟨.object 7, 1, 2⟩ 9]) ∧
      TakenInOrder log ⟨.object 7, 1, 2⟩ 9 := by
  let labels : List Label :=
    [.call (.thread 0) (.attach 7), .call (.thread 0) (.enqueue 7 5),
      .call (.thread 1) (.enqueue 7 1), .call (.thread 0) (.enqueue 7 1)]
  have computed : (Run.steps? system (fun _ _ => True) initial labels).map
      (fun result => (decide (.enqueued ⟨.object 7, 5, 1⟩ ∈ result.2),
        (system.step? result.1 (.worker 9)).map Prod.snd)) =
        some (true, some [.taken ⟨.object 7, 1, 2⟩ 9]) := by
    decide +kernel
  obtain ⟨⟨state, log⟩, ran, same⟩ := Option.map_eq_some_iff.mp computed
  obtain ⟨delayed, taken⟩ := Prod.mk.inj same
  obtain ⟨⟨state', events⟩, step, rfl⟩ := Option.map_eq_some_iff.mp taken
  have run := Run.of_steps? ran
  exact ⟨log, state, state', run, of_decide_eq_true delayed, step, dispatch_in_order run step⟩

end UnixDomainStream.Dispatcher
