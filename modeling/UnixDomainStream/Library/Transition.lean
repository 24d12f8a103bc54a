import Mathlib.Data.List.Basic

/-!
# Transition systems

A system makes a step when a label selects one, and a step emits events.  A run
is a sequence of permitted steps together with the events emitted so far.
-/

namespace UnixDomainStream.Library

/-- A transition system given by an executable step function. -/
structure System (State Label Event : Type) where
  step? : State → Label → Option (State × List Event)

/-- Runs all of whose steps are permitted, with the log of their events. -/
inductive Run {State Label Event : Type} (system : System State Label Event)
    (permitted : State → Label → Prop) (start : State) : List Event → State → Prop where
  | refl : Run system permitted start [] start
  | next {log : List Event} {state : State} {label : Label} {events : List Event}
      {state' : State}
      (run : Run system permitted start log state)
      (permit : permitted state label)
      (step : system.step? state label = some (state', events)) :
      Run system permitted start (log ++ events) state'

/-- The same steps, with what an observer notes of each as its events. -/
def System.observing {State Label Event Note : Type} (system : System State Label Event)
    (note : State → Label → State → List Note) : System State Label Note where
  step? state label :=
    (system.step? state label).map fun (state', _) => (state', note state label state')

/-- The same steps and events, each with what an observer notes before the step. -/
def System.annotating {State Label Event Note : Type} (system : System State Label Event)
    (note : State → Label → List Note) : System State Label (Event ⊕ Note) where
  step? state label :=
    (system.step? state label).map fun (state', events) =>
      (state', events.map .inl ++ (note state label).map .inr)

/-- The events of an annotated log. -/
def eventsOf {Event Note : Type} (log : List (Event ⊕ Note)) : List Event :=
  log.filterMap Sum.getLeft?

/-- The notes of an annotated log. -/
def notesOf {Event Note : Type} (log : List (Event ⊕ Note)) : List Note :=
  log.filterMap Sum.getRight?

@[simp]
theorem eventsOf_append {Event Note : Type} (first second : List (Event ⊕ Note)) :
    eventsOf (first ++ second) = eventsOf first ++ eventsOf second :=
  List.filterMap_append ..

@[simp]
theorem notesOf_append {Event Note : Type} (first second : List (Event ⊕ Note)) :
    notesOf (first ++ second) = notesOf first ++ notesOf second :=
  List.filterMap_append ..

@[simp]
theorem eventsOf_annotated {Event Note : Type} (emitted : List Event) (noted : List Note) :
    eventsOf (emitted.map .inl ++ noted.map .inr : List (Event ⊕ Note)) = emitted := by
  have left : Sum.getLeft? ∘ @Sum.inl Event Note = some := rfl
  have right : Sum.getLeft? ∘ @Sum.inr Event Note = fun _ => none := rfl
  simp [eventsOf, List.filterMap_map, left, right]

@[simp]
theorem notesOf_annotated {Event Note : Type} (emitted : List Event) (noted : List Note) :
    notesOf (emitted.map .inl ++ noted.map .inr : List (Event ⊕ Note)) = noted := by
  have left : Sum.getRight? ∘ @Sum.inl Event Note = fun _ => none := rfl
  have right : Sum.getRight? ∘ @Sum.inr Event Note = some := rfl
  simp [notesOf, List.filterMap_map, left, right]

namespace Run

variable {State Label Event : Type} {system : System State Label Event}
variable {permitted : State → Label → Prop} {start : State}

/-- A property of the log and the state holds throughout a run if it holds at
the start and every permitted step keeps it. -/
theorem invariant {holds : List Event → State → Prop} (initially : holds [] start)
    (preserved : ∀ {log state label events state'}, holds log state →
      permitted state label → system.step? state label = some (state', events) →
      holds (log ++ events) state')
    {log : List Event} {state : State} (run : Run system permitted start log state) :
    holds log state := by
  induction run with
  | refl => exact initially
  | next _ permit step ih => exact preserved ih permit step

/-- The same rule for properties of the state alone. -/
theorem invariant_state {holds : State → Prop} (initially : holds start)
    (preserved : ∀ {state label events state'}, holds state → permitted state label →
      system.step? state label = some (state', events) → holds state')
    {log : List Event} {state : State} (run : Run system permitted start log state) :
    holds state :=
  invariant initially preserved run

/-- Two runs compose, and so do their logs. -/
theorem append {log log' : List Event} {state state' : State}
    (first : Run system permitted start log state)
    (second : Run system permitted state log' state') :
    Run system permitted start (log ++ log') state' := by
  induction second with
  | refl => simpa using first
  | next _ permit step ih =>
      rw [← List.append_assoc]
      exact ih.next permit step

/-- A forward simulation: what a step of one system does, a run of the other does from every
related state, and its log is what can be seen of the events of the step. -/
theorem simulated {State' Label' Event' : Type} {other : System State' Label' Event'}
    {permitted' : State' → Label' → Prop} {start' : State'} {see : Event → Option Event'}
    {related : State → State' → Prop} (initially : related start start')
    (matched : ∀ {log state label events state' abstract}, Run system permitted start log state →
      related state abstract → permitted state label →
      system.step? state label = some (state', events) →
      ∃ abstract', Run other permitted' abstract (events.filterMap see) abstract' ∧
        related state' abstract')
    {log : List Event} {state : State} (run : Run system permitted start log state) :
    ∃ abstract, Run other permitted' start' (log.filterMap see) abstract ∧
      related state abstract := by
  induction run with
  | refl => exact ⟨start', refl, initially⟩
  | next run permit step ih =>
      obtain ⟨abstract, before, relation⟩ := ih
      obtain ⟨abstract', after, relation'⟩ := matched run relation permit step
      rw [List.filterMap_append]
      exact ⟨abstract', before.append after, relation'⟩

theorem mono {other : State → Label → Prop}
    (weaker : ∀ {state label}, permitted state label → other state label)
    {log : List Event} {state : State} (run : Run system permitted start log state) :
    Run system other start log state := by
  induction run with
  | refl => exact refl
  | next _ permit step ih => exact ih.next (weaker permit) step

/-- A run of a list of labels, computed. -/
def steps? (system : System State Label Event) (permitted : State → Label → Prop)
    [∀ state label, Decidable (permitted state label)] (start : State) :
    List Label → Option (State × List Event)
  | [] => some (start, [])
  | label :: rest =>
      if permitted start label then
        match system.step? start label with
        | none => none
        | some (state, events) =>
            (steps? system permitted state rest).map fun (state', log) => (state', events ++ log)
      else none

theorem of_steps? [∀ state label, Decidable (permitted state label)] {labels : List Label}
    {state : State} {log : List Event}
    (computed : steps? system permitted start labels = some (state, log)) :
    Run system permitted start log state := by
  induction labels generalizing start state log with
  | nil =>
      cases computed
      exact refl
  | cons label rest ih =>
      rw [steps?] at computed
      split at computed
      case isFalse => cases computed
      case isTrue permit =>
        cases stepped : system.step? start label with
        | none => simp [stepped] at computed
        | some result =>
            obtain ⟨next, events⟩ := result
            simp only [stepped, Option.map_eq_some_iff] at computed
            obtain ⟨⟨last, after⟩, ran, same⟩ := computed
            cases same
            have first : Run system permitted start ([] ++ events) next :=
              refl.next permit stepped
            exact first.append (ih ran)

/-- Where the run of a list of labels ends, and its log. -/
def result (system : System State Label Event) (permitted : State → Label → Prop)
    [∀ state label, Decidable (permitted state label)] (start : State) (labels : List Label) :
    State × List Event :=
  (steps? system permitted start labels).getD (start, [])

/-- A list of labels whose steps are all possible is a run. -/
theorem of_isSome [∀ state label, Decidable (permitted state label)] {labels : List Label}
    (possible : (steps? system permitted start labels).isSome = true) :
    Run system permitted start (result system permitted start labels).2
      (result system permitted start labels).1 :=
  of_steps? (Option.getD_of_ne_none (Option.isSome_iff_ne_none.mp possible) _).symm

/-- The run of a list of labels, known by its log and a view of its last state. -/
theorem of_view [∀ state label, Decidable (permitted state label)] {β : Type} {view : State → β}
    {labels : List Label} {value : β} {log : List Event}
    (computed : (steps? system permitted start labels).map
      (fun result => (view result.1, result.2)) = some (value, log)) :
    ∃ state, Run system permitted start log state ∧ view state = value := by
  obtain ⟨⟨state, log'⟩, ran, same⟩ := Option.map_eq_some_iff.mp computed
  cases same
  exact ⟨state, of_steps? ran, rfl⟩

/-- An observed step is a step. -/
theorem step_of_observing {Note : Type} {note : State → Label → State → List Note}
    {state state' : State} {label : Label} {notes : List Note}
    (step : (system.observing note).step? state label = some (state', notes)) :
    ∃ events, system.step? state label = some (state', events) ∧
      notes = note state label state' := by
  obtain ⟨⟨after, events⟩, stepped, same⟩ := Option.map_eq_some_iff.mp step
  cases same
  exact ⟨events, stepped, rfl⟩

/-- An observed run is a run. -/
theorem of_observing {Note : Type} {note : State → Label → State → List Note}
    {notes : List Note} {state : State}
    (run : Run (system.observing note) permitted start notes state) :
    ∃ log, Run system permitted start log state := by
  induction run with
  | refl => exact ⟨[], refl⟩
  | next _ permit step ih =>
      obtain ⟨log, run⟩ := ih
      obtain ⟨events, stepped, _⟩ := step_of_observing step
      exact ⟨log ++ events, run.next permit stepped⟩

/-- An annotated step is a step. -/
theorem step_of_annotating {Note : Type} {note : State → Label → List Note}
    {state state' : State} {label : Label} {log : List (Event ⊕ Note)}
    (step : (system.annotating note).step? state label = some (state', log)) :
    system.step? state label = some (state', eventsOf log) ∧ notesOf log = note state label := by
  obtain ⟨⟨after, emitted⟩, stepped, same⟩ := Option.map_eq_some_iff.mp step
  cases same
  exact ⟨by rw [eventsOf_annotated]; exact stepped, notesOf_annotated ..⟩

/-- An annotated run is a run. -/
theorem of_annotating {Note : Type} {note : State → Label → List Note}
    {log : List (Event ⊕ Note)} {state : State}
    (run : Run (system.annotating note) permitted start log state) :
    Run system permitted start (eventsOf log) state := by
  induction run with
  | refl => exact refl
  | next _ permit step ih =>
      rw [eventsOf_append]
      exact ih.next permit (step_of_annotating step).1

end Run

end UnixDomainStream.Library
