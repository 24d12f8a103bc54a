import UnixDomainStream.Library.Transition
import UnixDomainStream.PeerTurn

/-!
# A peer in its environment

The handlers of one peer wait in the I/O queue in the order in which they were
posted.  The owner closes the peer or pushes frames, and outstanding operations
complete, at any time between two handlers.
-/

namespace UnixDomainStream

open Library Protocol

def PeerTimer.all : List PeerTimer :=
  [.readyDeadline, .heartbeatTimer, .heartbeatDeadline, .readDeadline, .writeDeadline]

@[simp]
theorem PeerTimer.mem_all (name : PeerTimer) : name ∈ PeerTimer.all := by
  cases name <;> decide

/-- The deadlines whose operation a handler concludes, if it completed successfully:
a read or a write has its deadline, and a whole frame the heartbeat deadline. -/
def PeerHandler.finishes (peer : Peer) : PeerHandler → List PeerTimer
  | .readHeader errorCode _ => if errorCode = .success then [.readDeadline] else []
  | .readBody errorCode bytes =>
      if errorCode = .success then
        if bytes.length = peer.readBody.length then [.readDeadline, .heartbeatDeadline]
        else [.readDeadline]
      else []
  | .write errorCode => if errorCode = .success then [.writeDeadline] else []
  | _ => []

namespace Peer

/-- The completions of outstanding operations. -/
inductive Completes (peer : Peer) : PeerCompletion → Peer → PeerHandler → Prop where
  | timer {name : PeerTimer} {wait : Nat} (waiting : peer.waits name = some wait) :
      Completes peer (.timer name)
        { peer with waits := Function.update peer.waits name none } (.timer name wait .success)
  | read {operation : PendingRead} {errorCode : ErrorCode} {bytes : Bytes}
      (reading : peer.reading = some operation) (genuine : errorCode ≠ .operationAborted)
      (filled : (errorCode = .success ∧ bytes.length = operation.size) ∨
        (errorCode ≠ .success ∧ bytes.length < operation.size)) :
      Completes peer (.read errorCode bytes) { peer with reading := none }
        (PeerTurn.readHandler operation errorCode bytes)
  | write {frame : Bytes} {errorCode : ErrorCode} (writing : peer.writing = some frame)
      (genuine : errorCode ≠ .operationAborted) :
      Completes peer (.write errorCode) { peer with writing := none } (.write errorCode)

theorem completes_of_eq_some {peer after : Peer} {completion : PeerCompletion}
    {handler : PeerHandler} (completed : peer.complete? completion = some (after, handler)) :
    Completes peer completion after handler := by
  cases completion with
  | timer name =>
      simp only [complete?] at completed
      split at completed
      · cases completed
      case h_2 wait waiting =>
        cases completed
        exact .timer waiting
  | read errorCode bytes =>
      simp only [complete?] at completed
      split at completed
      · cases completed
      case h_2 operation reading =>
        split at completed
        · cases completed
        case isFalse genuine =>
          split at completed
          case isTrue filled =>
            cases completed
            exact .read reading genuine filled
          case isFalse => cases completed
  | write errorCode =>
      simp only [complete?] at completed
      split at completed
      · cases completed
      case h_2 frame writing =>
        split at completed
        · cases completed
        case isFalse genuine =>
          cases completed
          exact .write writing genuine

/-- A peer object and the handlers queued for it. -/
structure State where
  peer : Peer := {}
  handlers : List PeerHandler := []

inductive Label where
  | handler
  | asyncClose (completion : Bool)
  | asyncPushFrame (frame : Bytes)
  | completes (completion : PeerCompletion)
  deriving DecidableEq, Repr

/-- The signals enqueued, and records of what the handlers do to the timers and
the frames. -/
inductive Event where
  | signal (signal : Signal)
  /-- A timer was armed with the given wait. -/
  | armed (name : PeerTimer) (wait : Nat)
  /-- The handler of the operation that a deadline watches has run, the operation having
  completed successfully. -/
  | finished (name : PeerTimer)
  /-- The handler of a wait has closed the open socket with `timed_out`. -/
  | timedOut (name : PeerTimer) (wait : Nat)
  /-- `async_push_frame` was called. -/
  | called (frame : Bytes)
  /-- A frame was put into the write queue, by a call or by the peer itself. -/
  | accepted (byCall : Bool) (frame : Bytes)
  /-- A write has completed successfully. -/
  | written (frame : Bytes)
  deriving DecidableEq, Repr

/-- The records of a handler that took the peer from `before` to the peer of `turn`. -/
def timedOuts (before : Peer) (handler : PeerHandler) (turn : PeerTurn) : List Event :=
  match handler with
  | .timer name wait _ =>
      if before.isOpen && !turn.peer.isOpen && turn.signals.contains (.errorOccurred .timedOut) then
        [.timedOut name wait]
      else []
  | _ => []

def armings (before after : Peer) : List Event :=
  PeerTimer.all.filterMap fun name =>
    if after.waits name = before.waits name then none
    else (after.waits name).map (.armed name)

def acceptances (before : Peer) (handler : PeerHandler) (after : Peer) : List Event :=
  match handler with
  | .write _ => []
  | .pushFrame _ => (after.writeQueue.drop before.writeQueue.length).map (.accepted true)
  | _ => (after.writeQueue.drop before.writeQueue.length).map (.accepted false)

def handlerEvents (before : Peer) (handler : PeerHandler) (turn : PeerTurn) : List Event :=
  timedOuts before handler turn ++ (handler.finishes before).map .finished ++
    armings before turn.peer ++ acceptances before handler turn.peer ++
    turn.signals.map .signal

/-- The frame of a write that completes successfully. -/
def writtenFrames (peer : Peer) : PeerCompletion → List Event
  | .write .success => peer.writing.toList.map .written
  | _ => []

section

variable (options : CommonOptions)

def step? (state : State) : Label → Option (State × List Event)
  | .handler =>
      match state.handlers with
      | [] => none
      | handler :: rest =>
          let turn := PeerTurn.run options handler { peer := state.peer }
          some ({ peer := turn.peer, handlers := rest ++ turn.posted },
            handlerEvents state.peer handler turn)
  | .asyncClose completion =>
      some ({ state with handlers := state.handlers ++ [.close completion] }, [])
  | .asyncPushFrame frame =>
      some ({ state with handlers := state.handlers ++ [.pushFrame frame] }, [.called frame])
  | .completes completion =>
      (state.peer.complete? completion).map fun (peer, handler) =>
        ({ peer, handlers := state.handlers ++ [handler] },
          writtenFrames state.peer completion)

def system : System State Label Event where
  step? := step? options

end

/-- A peer with an open socket on which `async_start` has been called. -/
def started : State where
  handlers := [.start]

/-- The same, where the socket may be closed already. -/
def startedOn (isOpen : Bool) : State where
  peer := { isOpen }
  handlers := [.start]

/-- The kinds of step. -/
inductive Step (options : CommonOptions) (state : State) : Label → List Event → State → Prop where
  | handler {handler : PeerHandler} {rest : List PeerHandler}
      (queued : state.handlers = handler :: rest) :
      Step options state .handler
        (handlerEvents state.peer handler (PeerTurn.run options handler { peer := state.peer }))
        { peer := (PeerTurn.run options handler { peer := state.peer }).peer
          handlers := rest ++ (PeerTurn.run options handler { peer := state.peer }).posted }
  | asyncClose (completion : Bool) :
      Step options state (.asyncClose completion) []
        { state with handlers := state.handlers ++ [.close completion] }
  | asyncPushFrame (frame : Bytes) :
      Step options state (.asyncPushFrame frame) [.called frame]
        { state with handlers := state.handlers ++ [.pushFrame frame] }
  | completes {completion : PeerCompletion} {peer : Peer} {handler : PeerHandler}
      (completed : state.peer.complete? completion = some (peer, handler)) :
      Step options state (.completes completion) (writtenFrames state.peer completion)
        { peer, handlers := state.handlers ++ [handler] }

theorem step_of_eq_some {options : CommonOptions} {state state' : State} {label : Label}
    {events : List Event} (step : (system options).step? state label = some (state', events)) :
    Step options state label events state' := by
  cases label with
  | handler =>
      simp only [system, step?] at step
      split at step
      · cases step
      case h_2 handler rest queued =>
        cases step
        exact .handler queued
  | asyncClose completion =>
      cases step
      exact .asyncClose completion
  | asyncPushFrame frame =>
      cases step
      exact .asyncPushFrame frame
  | completes completion =>
      obtain ⟨⟨peer, handler⟩, completed, same⟩ := Option.map_eq_some_iff.mp step
      cases same
      exact .completes completed

def Event.signal? : Event → Option Signal
  | .signal sent => some sent
  | _ => none

/-- The signals of a run, in the order in which they were enqueued. -/
def signals (log : List Event) : List Signal := log.filterMap Event.signal?

@[simp]
theorem signals_nil : signals [] = [] := rfl

@[simp]
theorem signals_append (first second : List Event) :
    signals (first ++ second) = signals first ++ signals second :=
  List.filterMap_append ..

/-- Records of one kind that is no signal. -/
theorem signals_map {α : Type} {record : α → Event}
    (hidden : ∀ value, (record value).signal? = none) (list : List α) : signals (list.map record) = [] := by
  rw [signals, List.filterMap_map]
  exact List.filterMap_eq_nil_iff.mpr fun value _ => hidden value

/-- A handler contributes its signals, and the other steps none. -/
theorem signals_handlerEvents (before : Peer) (handler : PeerHandler) (turn : PeerTurn) :
    signals (handlerEvents before handler turn) = turn.signals := by
  have own : signals (turn.signals.map .signal) = turn.signals := by
    rw [signals, List.filterMap_map]
    exact List.filterMap_some
  have late : signals (timedOuts before handler turn) = [] := by
    unfold timedOuts
    split
    · split <;> rfl
    · rfl
  have done : signals ((handler.finishes before).map .finished) = [] := signals_map (fun _ => rfl) _
  have armed : signals (armings before turn.peer) = [] := by
    refine List.filterMap_eq_nil_iff.mpr fun event member => ?_
    obtain ⟨name, _, wait⟩ := List.mem_filterMap.mp member
    split at wait
    · cases wait
    · obtain ⟨number, _, rfl⟩ := Option.map_eq_some_iff.mp wait
      rfl
  have queued : signals (acceptances before handler turn.peer) = [] := by
    unfold acceptances
    split
    · rfl
    · exact signals_map (fun _ => rfl) _
    · exact signals_map (fun _ => rfl) _
  simp [handlerEvents, own, late, done, armed, queued]

theorem signals_writtenFrames (peer : Peer) (completion : PeerCompletion) :
    signals (writtenFrames peer completion) = [] := by
  unfold writtenFrames
  split
  · exact signals_map (fun _ => rfl) _
  · rfl

end Peer

end UnixDomainStream
