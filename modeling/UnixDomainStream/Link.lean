import UnixDomainStream.Peer.Program

/-!
# Two peers and the stream between them

The two ends of a connected socket.  What one end writes goes byte by byte into a pipe,
from which the other end reads.  A write completes when all of its frame is in the pipe; a
read takes what is in front of the pipe, and ends with `eof` when the writer has closed its
socket and nothing is left.  Errors may break an operation off at any time.
-/

namespace UnixDomainStream.Link

open Library Protocol

inductive Side where
  | near
  | far
  deriving DecidableEq, Repr

def Side.other : Side → Side
  | .near => .far
  | .far => .near

/-- One direction of the stream, named by the side that writes. -/
structure Pipe where
  /-- What has been written and not been read. -/
  bytes : Bytes := []
  /-- How much of the frame of the outstanding write is written. -/
  progress : Nat := 0
  deriving DecidableEq, Repr

structure State where
  peers : Side → Peer.State
  pipes : Side → Pipe

inductive Label where
  | peer (side : Side) (label : Peer.Label)
  /-- Bytes of the outstanding write go into the pipe. -/
  | transmit (side : Side) (count : Nat)
  deriving DecidableEq, Repr

/-- What the peers record, and the whole bodies that their readers take. -/
inductive Event where
  | peer (side : Side) (event : Peer.Event)
  | frameRead (side : Side) (body : Bytes)
  deriving DecidableEq, Repr

/-- The pipes when an operation of a side completes, if it can complete like this. -/
def complete? (state : State) (side : Side) : PeerCompletion → Option (Side → Pipe)
  | .timer _ => some state.pipes
  | .write errorCode =>
      if errorCode = .success → (state.peers side).peer.writing.map List.length =
          some (state.pipes side).progress then
        some state.pipes
      else none
  | .read errorCode bytes =>
      let pipe := state.pipes side.other
      if bytes <+: pipe.bytes ∧ (errorCode = .eof →
          bytes = pipe.bytes ∧ (state.peers side.other).peer.isOpen = false) then
        some (Function.update state.pipes side.other
          { pipe with bytes := pipe.bytes.drop bytes.length })
      else none

/-- The pipes when a step of a side begins, if it can begin like this. -/
def pipes? (state : State) (side : Side) : Peer.Label → Option (Side → Pipe)
  | .completes completion => complete? state side completion
  | _ => some state.pipes

/-- The pipes when the step has left the peer like this; the next write starts anew. -/
def settle (side : Side) (peer : Peer) (pipes : Side → Pipe) : Side → Pipe :=
  Function.update pipes side { pipes side with
    progress := if peer.writing.isSome then (pipes side).progress else 0 }

/-- The whole body that the next handler takes. -/
def bodies (state : Peer.State) : Peer.Label → List Bytes
  | .handler =>
      match state.handlers with
      | .readBody .success body :: _ =>
          if body.length = state.peer.readBody.length then [body] else []
      | _ => []
  | _ => []

section

variable (options : Side → CommonOptions)

def step? (state : State) : Label → Option (State × List Event)
  | .peer side label =>
      match pipes? state side label,
          Peer.step? (options side) (state.peers side) label with
      | some pipes, some (peer, events) =>
          some ({ peers := Function.update state.peers side peer
                  pipes := settle side peer.peer pipes },
            events.map (.peer side) ++ (bodies (state.peers side) label).map (.frameRead side))
      | _, _ => none
  | .transmit side count =>
      match (state.peers side).peer.writing with
      | none => none
      | some frame =>
          let pipe := state.pipes side
          if pipe.progress + count ≤ frame.length then
            some ({ state with
              pipes := Function.update state.pipes side
                { bytes := pipe.bytes ++ (frame.drop pipe.progress).take count
                  progress := pipe.progress + count } }, [])
          else none

def system : System State Label Event where
  step? := step? options

end

/-- Both ends on a fresh connection. -/
def initial : State where
  peers _ := Peer.started
  pipes _ := {}

/-- The kinds of step. -/
inductive Step (options : Side → CommonOptions) (state : State) :
    Label → List Event → State → Prop where
  | peer {side : Side} {label : Peer.Label} {pipes : Side → Pipe} {peer : Peer.State}
      {events : List Peer.Event} (begins : pipes? state side label = some pipes)
      (step : (Peer.system (options side)).step? (state.peers side) label = some (peer, events)) :
      Step options state (.peer side label)
        (events.map (.peer side) ++ (bodies (state.peers side) label).map (.frameRead side))
        { peers := Function.update state.peers side peer
          pipes := settle side peer.peer pipes }
  | transmit {side : Side} {count : Nat} {frame : Bytes}
      (writing : (state.peers side).peer.writing = some frame)
      (room : (state.pipes side).progress + count ≤ frame.length) :
      Step options state (.transmit side count) []
        { state with
          pipes := Function.update state.pipes side
            { bytes := (state.pipes side).bytes ++
                (frame.drop (state.pipes side).progress).take count
              progress := (state.pipes side).progress + count } }

theorem step_of_eq_some {options : Side → CommonOptions} {state state' : State} {label : Label}
    {events : List Event} (step : (system options).step? state label = some (state', events)) :
    Step options state label events state' := by
  cases label with
  | peer side label =>
      simp only [system, step?] at step
      split at step
      case h_1 pipes peer recorded begins stepped =>
        cases step
        exact .peer begins stepped
      · cases step
  | transmit side count =>
      simp only [system, step?] at step
      split at step
      · cases step
      case h_2 frame writing =>
        split at step
        case isTrue room =>
          cases step
          exact .transmit writing room
        · cases step

/-! ## The records of one side -/

def Event.peer? (side : Side) : Event → Option Peer.Event
  | .peer other event => if other = side then some event else none
  | _ => none

def Event.frameRead? (side : Side) : Event → Option Bytes
  | .frameRead other body => if other = side then some body else none
  | _ => none

/-- What the peer of a side has recorded. -/
def recorded (side : Side) (log : List Event) : List Peer.Event := log.filterMap (Event.peer? side)

/-- The bodies that the reader of a side has taken. -/
def framesRead (side : Side) (log : List Event) : List Bytes :=
  log.filterMap (Event.frameRead? side)

variable {side : Side} {options : Side → CommonOptions}

@[simp]
theorem Side.other_ne (side : Side) : side.other ≠ side := by
  cases side <;> simp [Side.other]

@[simp]
theorem Side.ne_other (side : Side) : side ≠ side.other := side.other_ne.symm

@[simp]
theorem Side.other_other (side : Side) : side.other.other = side := by
  cases side <;> rfl

/-- A label is about the side, or about the other one. -/
theorem Side.eq_or_other (one two : Side) : one = two ∨ one = two.other := by
  cases one <;> cases two <;> simp [Side.other]

@[simp]
theorem recorded_append (first second : List Event) :
    recorded side (first ++ second) = recorded side first ++ recorded side second :=
  List.filterMap_append ..

@[simp]
theorem framesRead_append (first second : List Event) :
    framesRead side (first ++ second) = framesRead side first ++ framesRead side second :=
  List.filterMap_append ..

/-- The records of a step of the side itself. -/
theorem recorded_own (events : List Peer.Event) (read : List Bytes) :
    recorded side (events.map (.peer side) ++ read.map (.frameRead side)) = events ∧
      framesRead side (events.map (.peer side) ++ read.map (.frameRead side)) = read := by
  constructor <;>
    simp [recorded, framesRead, List.filterMap_map, Function.comp_def, Event.peer?,
      Event.frameRead?]

/-- A step of the other side records nothing here. -/
theorem recorded_other {other : Side} (different : other ≠ side) (events : List Peer.Event)
    (read : List Bytes) :
    recorded side (events.map (.peer other) ++ read.map (.frameRead other)) = [] ∧
      framesRead side (events.map (.peer other) ++ read.map (.frameRead other)) = [] := by
  constructor <;>
    simp [recorded, framesRead, List.filterMap_map, Function.comp_def, Event.peer?,
      Event.frameRead?, different]

/-- Each side of a link runs as a peer on its own does. -/
theorem run_peer {permitted : State → Label → Prop} {log : List Event} {state : State}
    (run : Run (system options) permitted initial log state) (side : Side) :
    Run (Peer.system (options side)) (fun _ _ => True) Peer.started (recorded side log)
      (state.peers side) := by
  induction run with
  | refl => exact .refl
  | next run _ step ih =>
      rw [recorded_append]
      cases step_of_eq_some step with
      | @peer other label pipes peer events begins stepped =>
          by_cases own : other = side
          · subst own
            rw [(recorded_own events _).1]
            dsimp only
            rw [Function.update_self]
            exact ih.next trivial stepped
          · rw [(recorded_other own events _).1, List.append_nil]
            dsimp only
            rw [Function.update_of_ne (Ne.symm own)]
            exact ih
      | transmit writing room =>
          rw [show recorded side [] = [] from rfl, List.append_nil]
          exact ih

end UnixDomainStream.Link
