import UnixDomainStream.Peer.Pieces
import UnixDomainStream.Peer.Program

/-!
# The signals of a peer

On an open socket a handler reports messages and then, only if it closes the
socket, an error and `closed`.  A handler that finds the socket closed may still
report; where none does, `closed` is the last signal.
-/

namespace UnixDomainStream

open Library Protocol

namespace PeerTurn

/-! ## Errors close the socket -/

/-- An error has been reported only if the socket is closed. -/
def Honest (turn : PeerTurn) : Prop :=
  ∀ errorCode, .errorOccurred errorCode ∈ turn.signals → turn.peer.isOpen = false

variable {turn : PeerTurn}

theorem Quiet.honest {after : PeerTurn} (quiet : Quiet turn after) (honest : turn.Honest) :
    after.Honest := by
  intro errorCode reported
  rw [quiet.signals] at reported
  rw [quiet.isOpen]
  exact honest errorCode reported

theorem close_honest (turn : PeerTurn) : turn.close.Honest := fun _ _ => close_isOpen turn

theorem Honest.handleError (honest : turn.Honest) (errorCode : ErrorCode) :
    (turn.handleError errorCode).Honest := by
  unfold PeerTurn.handleError
  split
  · exact honest
  · exact close_honest _

theorem Piece.honest {options : CommonOptions} {handler : PeerHandler} {after : PeerTurn}
    (piece : Piece options handler turn after) (honest : turn.Honest) : after.Honest := by
  cases piece with
  | cancel name => exact (cancel_quiet name turn).honest honest
  | asyncWait name => exact (asyncWait_quiet name turn).honest honest
  | asyncRead operation => exact (asyncRead_quiet operation turn).honest honest
  | report early =>
      intro errorCode reported
      rcases List.mem_append.mp reported with old | new
      · exact honest errorCode old
      · rw [← List.mem_singleton.mp new] at early
        cases early
  | handleError errorCode => exact honest.handleError errorCode
  | close => exact close_honest turn
  | pushFrame frame =>
      unfold PeerTurn.pushFrame
      split
      · split
        · exact honest.handleError _
        · dsimp only
          split
          · exact (write_quiet _).honest honest
          · exact honest
      · exact honest
  | update same =>
      intro errorCode reported
      rw [same.signals] at reported
      rw [same.isOpen]
      exact honest errorCode reported
  | pop => exact honest
  | write => exact (write_quiet turn).honest honest

/-- Whatever handler runs, an error it reports has closed the socket. -/
theorem run_honest (options : CommonOptions) (handler : PeerHandler) (honest : turn.Honest) :
    (run options handler turn).Honest :=
  (run_pieces options handler turn).keeps _ (fun piece => piece.honest) honest

/-! ## Reports on a closed socket -/

theorem handleError_silent {errorCode : ErrorCode} :
    (turn.handleError errorCode).signals = [] ↔
      turn.signals = [] ∧ errorCode = .operationAborted := by
  unfold handleError
  split
  case isTrue aborted => simp [aborted]
  case isFalse genuine => simp [close_signals, enqueue, genuine]

theorem ensureReady_silent :
    turn.ensureReady.signals = [] ↔ turn.signals = [] ∧ turn.peer.ready = true := by
  unfold ensureReady
  split
  case isTrue ready => simp [ready]
  case isFalse unready => simp [enqueue, unready]

theorem close_silent (closed : turn.peer.isOpen = false) :
    turn.close.signals = turn.signals := by
  simp [close_signals, closedSignals, closed]

theorem pushFrame_closed (closed : turn.peer.isOpen = false) (options : CommonOptions)
    (frame : Bytes) : turn.pushFrame options frame = turn := by
  simp [pushFrame, closed]

theorem decodeUint64?_isSome {body : Bytes} (long : typeSize + requestIdSize ≤ body.length) :
    (decodeUint64? body typeSize).isSome = true := by
  simp only [typeSize, requestIdSize] at long
  have read : ∀ index, index < 9 → ∃ byte, body[index]? = some byte := fun index small =>
    ⟨_, List.getElem?_eq_getElem (by omega)⟩
  obtain ⟨_, read1⟩ := read 1 (by decide)
  obtain ⟨_, read2⟩ := read 2 (by decide)
  obtain ⟨_, read3⟩ := read 3 (by decide)
  obtain ⟨_, read4⟩ := read 4 (by decide)
  obtain ⟨_, read5⟩ := read 5 (by decide)
  obtain ⟨_, read6⟩ := read 6 (by decide)
  obtain ⟨_, read7⟩ := read 7 (by decide)
  obtain ⟨_, read8⟩ := read 8 (by decide)
  simp [decodeUint64?, typeSize, read1, read2, read3, read4, read5, read6, read7, read8]

end PeerTurn

/-- The checks of `read_header` on the bytes it has read. -/
def acceptsHeader (options : CommonOptions) (bytes : Bytes) : Bool :=
  let bodySize := (decodeUint32 bytes).toNat
  bytes.length == headerSize && decide (typeSize ≤ bodySize) &&
    decide (bodySize ≤ sizeT (options.maxMessageSize + typeSize + requestIdSize))

/-- Whether the `switch` of `read_body` enqueues a signal on a closed socket. -/
def bodyReportsLate (ready : Bool) : Bytes → Bool
  | [] => false
  | type :: _ =>
      match MessageType.ofByte? type with
      | some .heartbeat => false
      | some .healthCheck => ready
      | _ => true

/-- Whether a handler that finds the socket closed enqueues a signal. -/
def PeerHandler.reportsLate (options : CommonOptions) (peer : Peer) : PeerHandler → Bool
  | .timer .readyDeadline _ errorCode => errorCode == .success && !peer.ready
  | .timer .heartbeatTimer _ _ => false
  | .timer _ _ errorCode => errorCode == .success
  | .readHeader errorCode bytes =>
      if errorCode = .success then !acceptsHeader options bytes
      else !(errorCode == .eof && bytes.length == 0) && errorCode != .operationAborted
  | .readBody errorCode bytes =>
      if errorCode = .success then
        bytes.length != peer.readBody.length || bodyReportsLate peer.ready bytes
      else errorCode != .operationAborted
  | .write errorCode => errorCode != .success && errorCode != .operationAborted
  | _ => false

namespace PeerTurn

variable {turn : PeerTurn}

theorem readRequestResponse_loud (options : CommonOptions) (signal : UInt64 → Bytes → Signal)
    (turn : PeerTurn) : (turn.readRequestResponse options signal).signals ≠ [] := by
  unfold readRequestResponse
  dsimp only
  split
  · simp [handleError_silent]
  case isFalse inRange =>
    have long : typeSize + requestIdSize ≤ turn.ensureReady.peer.readBody.length := by omega
    split
    case h_1 undecoded =>
      have decoded := decodeUint64?_isSome long
      simp [undecoded] at decoded
    · rw [(readHeader_quiet _).signals]
      simp [enqueue]

theorem readMessage_silent (options : CommonOptions) {body : Bytes}
    (stored : turn.peer.readBody = body) (silent : turn.signals = [])
    (closed : turn.peer.isOpen = false) :
    (turn.readMessage options).signals = [] ↔ bodyReportsLate turn.peer.ready body = false := by
  cases body with
  | nil => simp [readMessage, stored, silent, bodyReportsLate]
  | cons type buffer =>
      simp only [readMessage, stored, bodyReportsLate]
      cases known : MessageType.ofByte? type with
      | none => simp [handleError_silent]
      | some messageType =>
          cases messageType with
          | heartbeat => simp [(readHeader_quiet turn).signals, silent]
          | userData =>
              have loud : (turn.readUserData options).signals ≠ [] := by
                unfold readUserData
                dsimp only
                split
                · simp [handleError_silent]
                · rw [(readHeader_quiet _).signals]
                  simp [enqueue]
              simp [loud]
          | request => simp [readRequestResponse_loud]
          | response => simp [readRequestResponse_loud]
          | healthCheck =>
              cases ready : turn.peer.ready with
              | true => simp [readHealthCheck, ready, handleError_silent]
              | false => simp [readHealthCheck, ready, pushFrame_closed, closed, silent]
          | healthCheckResponse =>
              have loud : (turn.enqueue .healthCheckResponseReceived).readHeader.signals ≠ [] := by
                rw [(readHeader_quiet _).signals]
                simp [enqueue]
              simp [loud]

/-- On a closed socket a handler is silent exactly if it does not report late. -/
theorem run_silent (options : CommonOptions) (handler : PeerHandler) {peer : Peer}
    (closed : peer.isOpen = false) :
    (run options handler { peer }).signals = [] ↔ handler.reportsLate options peer = false := by
  cases handler with
  | start =>
      have waits := (asyncWait_quiet .readyDeadline { peer }).trans
        ((asyncWait_quiet .heartbeatTimer _).trans (asyncWait_quiet .heartbeatDeadline _))
      have silent := (waits.trans (readHeader_quiet _)).signals
      simp only [run, startReadyDeadline, startHeartbeatTimer, refreshHeartbeatDeadline, silent,
        PeerHandler.reportsLate]
  | close completion =>
      have silent := @close_silent { peer } closed
      simpa [run, PeerHandler.reportsLate] using silent
  | pushFrame frame =>
      have idle := @pushFrame_closed { peer } closed options frame
      simp [run, idle, PeerHandler.reportsLate]
  | timer name wait errorCode =>
      simp only [run]
      by_cases expired : errorCode = .success
      · simp only [expired, if_true]
        cases name <;>
          simp [onTimer, PeerHandler.reportsLate, ensureReady_silent, handleError_silent, closed]
      · cases name <;> simp [PeerHandler.reportsLate, expired]
  | readHeader errorCode bytes =>
      have cancelled := (cancel_quiet .readDeadline { peer }).signals
      simp only [run, onReadHeader, PeerHandler.reportsLate]
      by_cases failed : errorCode = .success
      · simp only [failed, ne_eq, not_true_eq_false, if_false, if_true]
        by_cases size : bytes.length = headerSize
        · by_cases inRange : (decodeUint32 bytes).toNat < typeSize ∨
              (decodeUint32 bytes).toNat >
                sizeT (options.maxMessageSize + typeSize + requestIdSize)
          · have refused : acceptsHeader options bytes = false := by
              simp only [acceptsHeader, Bool.and_eq_false_iff, decide_eq_false_iff_not]
              omega
            simp [size, inRange, refused, handleError_silent]
          · have accepted : acceptsHeader options bytes = true := by
              simp only [acceptsHeader, Bool.and_eq_true, decide_eq_true_eq, beq_iff_eq]
              omega
            simp [size, inRange, accepted, (readBody_quiet _).signals, cancelled]
        · have refused : acceptsHeader options bytes = false := by
            simp [acceptsHeader, size]
          simp [size, refused, handleError_silent]
      · simp only [ne_eq, failed, not_false_eq_true, if_true, if_false]
        split
        case isTrue ended =>
          have silent := @close_silent (({ peer } : PeerTurn).cancel .readDeadline) closed
          simp [silent, cancelled, ended.1, ended.2]
        case isFalse broken =>
          simp only [handleError_silent, cancelled, true_and]
          by_cases aborted : errorCode = .operationAborted
          · simp [aborted]
          · simp [aborted]
            grind
  | readBody errorCode bytes =>
      have cancelled := (cancel_quiet .readDeadline { peer }).signals
      simp only [run, onReadBody, PeerHandler.reportsLate]
      by_cases failed : errorCode = .success
      · simp only [failed, ne_eq, not_true_eq_false, if_false, if_true]
        by_cases size : bytes.length = peer.readBody.length
        · have kept : (({ peer } : PeerTurn).cancel .readDeadline).peer.readBody.length =
              peer.readBody.length := rfl
          simp only [kept, size, not_true_eq_false, if_false, bne_self_eq_false, Bool.false_or]
          refine readMessage_silent options rfl ?_ closed
          exact (asyncWait_quiet .heartbeatDeadline _).signals.trans cancelled
        · have wrong : (({ peer } : PeerTurn).cancel .readDeadline).peer.readBody.length =
              peer.readBody.length := rfl
          simp [wrong, size, handleError_silent]
      · simp [failed, handleError_silent, cancelled]
  | write errorCode =>
      have cancelled := (cancel_quiet .writeDeadline { peer }).signals
      simp only [run, onWrite, PeerHandler.reportsLate]
      by_cases failed : errorCode = .success
      · simp only [failed, ne_eq, not_true_eq_false, if_false, bne_self_eq_false, Bool.false_and,
          iff_true]
        split
        · exact cancelled
        · split
          · rw [close_silent closed]
            exact cancelled
          · rw [(write_quiet _).signals]
            exact cancelled
      · simp [failed, handleError_silent, cancelled]

end PeerTurn

/-! ## The signals of a run -/

namespace Peer

/-- How the signals of a peer end. -/
def ending (isOpen : Bool) (error : Option ErrorCode) : List Signal :=
  if isOpen then [] else error.toList.map .errorOccurred ++ [.closed]

/-- Messages, with `ready` among them once it was raised, and then the ending. -/
def Ordered (peer : Peer) (sent : List Signal) : Prop :=
  ∃ messages error, sent = messages ++ ending peer.isOpen error ∧
    (∀ message ∈ messages, message.isMessage = true) ∧
    messages.count .ready = if peer.ready then 1 else 0

/-- No handler that finds the socket closed reports late. -/
def Prompt (options : CommonOptions) (state : State) : Label → Prop
  | .handler => state.peer.isOpen = false →
      ∀ handler ∈ state.handlers.head?, handler.reportsLate options state.peer = false
  | _ => True

instance (options : CommonOptions) (state : State) (label : Label) :
    Decidable (Prompt options state label) :=
  match label with
  | .handler => inferInstanceAs (Decidable (_ → _))
  | .asyncClose _ => .isTrue trivial
  | .asyncPushFrame _ => .isTrue trivial
  | .completes _ => .isTrue trivial

theorem messageOf_isMessage {handler : PeerHandler} {message : Signal}
    (source : PeerTurn.messageOf handler message) :
    message.isMessage = true ∧ message ≠ .ready := by
  obtain ⟨body, _, content⟩ := source
  cases message <;> simp [Signal.isMessage] at content ⊢

/-- A handler that finds the socket open adds messages, and the ending if it
closes the socket. -/
theorem Ordered.open_handler {options : CommonOptions} {handler : PeerHandler} {peer : Peer}
    {sent : List Signal} (ordered : Ordered peer sent) (opened : peer.isOpen = true) :
    Ordered (PeerTurn.run options handler { peer }).peer
      (sent ++ (PeerTurn.run options handler { peer }).signals) := by
  obtain ⟨messages, error, rfl, early, raised⟩ := ordered
  have shape := PeerTurn.run_shape options handler peer
  have start : PeerTurn.Honest { peer } := fun _ reported => by cases reported
  have honest := PeerTurn.run_honest options handler start
  obtain ⟨message, error', source, _, reported⟩ := shape.signals
  generalize PeerTurn.run options handler { peer } = turn at shape honest reported ⊢
  have ready : (readySignals peer turn.peer).count .ready + (if peer.ready then 1 else 0) =
      if turn.peer.ready then 1 else 0 := by
    have kept := shape.ready
    cases before : peer.ready <;> cases after : turn.peer.ready <;>
      simp [readySignals, before, after] at kept ⊢
  have unready : message.toList.count .ready = 0 := by
    refine List.count_eq_zero.mpr fun member => ?_
    exact (messageOf_isMessage (source _ (Option.mem_toList.mp member))).2 rfl
  refine ⟨messages ++ readySignals peer turn.peer ++ message.toList, error', ?_, ?_, ?_⟩
  · rw [reported]
    cases closed : turn.peer.isOpen with
    | true =>
        have none : error' = none := by
          cases error' with
          | none => rfl
          | some errorCode =>
              have failed := honest errorCode (by simp [reported])
              simp [closed] at failed
        simp [ending, opened, closed, none, closedSignals]
    | false => simp [ending, opened, closed, closedSignals]
  · intro sent member
    simp only [List.mem_append, Option.mem_toList] at member
    rcases member with (old | ready) | content
    · exact early sent old
    · unfold readySignals at ready
      split at ready
      · rw [List.mem_singleton.mp ready]
        rfl
      · cases ready
    · exact (messageOf_isMessage (source _ content)).1
  · simp only [List.count_append, raised, unready]
    omega

/-- A handler that finds the socket closed and does not report late adds nothing. -/
theorem Ordered.closed_handler {options : CommonOptions} {handler : PeerHandler} {peer : Peer}
    {sent : List Signal} (ordered : Ordered peer sent) (closed : peer.isOpen = false)
    (prompt : handler.reportsLate options peer = false) :
    Ordered (PeerTurn.run options handler { peer }).peer
      (sent ++ (PeerTurn.run options handler { peer }).signals) := by
  have shape := PeerTurn.run_shape options handler peer
  have silent := (PeerTurn.run_silent options handler closed).mpr prompt
  generalize PeerTurn.run options handler { peer } = turn at shape silent ⊢
  have stays : turn.peer.isOpen = false := by
    by_contra opened
    rw [Bool.not_eq_false] at opened
    rw [shape.isOpen opened] at closed
    cases closed
  have ready : turn.peer.ready = peer.ready := by
    obtain ⟨message, error, _, _, reported⟩ := shape.signals
    rw [silent] at reported
    have unraised : readySignals peer turn.peer = [] := (List.append_eq_nil_iff.mp reported.symm).1
    have kept := shape.ready
    cases before : peer.ready <;> cases after : turn.peer.ready <;>
      simp [readySignals, before, after] at unraised kept ⊢
  rw [silent, List.append_nil, Ordered, stays, ready, ← closed]
  exact ordered

theorem step_ordered {options : CommonOptions} {log : List Event} {state state' : State}
    {label : Label} {events : List Event} (ordered : Ordered state.peer (signals log))
    (prompt : Prompt options state label)
    (step : (system options).step? state label = some (state', events)) :
    Ordered state'.peer (signals (log ++ events)) := by
  rw [signals_append]
  cases step_of_eq_some step with
  | @handler handler rest queued =>
      rw [signals_handlerEvents]
      cases opened : state.peer.isOpen with
      | true => exact ordered.open_handler opened
      | false =>
          refine ordered.closed_handler opened (prompt opened handler ?_)
          simp [queued]
  | asyncClose completion => simpa using ordered
  | asyncPushFrame frame =>
      rw [show signals [.called frame] = [] from rfl, List.append_nil]
      exact ordered
  | completes completed =>
      obtain ⟨isOpen, ready, _⟩ := complete?_keeps completed
      rw [signals_writtenFrames, List.append_nil, Ordered, isOpen, ready]
      exact ordered

theorem run_ordered {options : CommonOptions} {log : List Event} {state : State}
    (run : Run (system options) (Prompt options) started log state) :
    Ordered state.peer (signals log) := by
  induction run with
  | refl => exact ⟨[], none, rfl, by simp, rfl⟩
  | next _ prompt step ih => exact step_ordered ih prompt step

/-- In every run in which no handler reports late, the signals of a peer are
messages, with `ready` at most once, then, once the socket is closed, at most one
error and one `closed`. -/
theorem closed_is_last (options : CommonOptions) {log : List Event} {state : State}
    (run : Run (system options) (Prompt options) started log state) :
    ∃ messages error, signals log = messages ++ ending state.peer.isOpen error ∧
      (∀ message ∈ messages, message.isMessage = true) ∧ messages.count .ready ≤ 1 := by
  obtain ⟨messages, error, same, early, raised⟩ := run_ordered run
  refine ⟨messages, error, same, early, ?_⟩
  rw [raised]
  split <;> omega

/-- A message is read and the remote end is closed. -/
theorem closed_is_last_remote_close :
    ∃ log state, Run (system {}) (Prompt {}) started log state ∧
      signals log = [.ready, .received [7], .closed] ∧
      ∃ messages error, signals log = messages ++ ending state.peer.isOpen error ∧
        (∀ message ∈ messages, message.isMessage = true) ∧ messages.count .ready ≤ 1 := by
  let labels : List Label :=
    [.handler, .completes (.read .success [0, 0, 0, 2]), .handler, .handler,
      .completes (.read .success [1, 7]), .handler, .handler, .handler, .handler,
      .completes (.read .eof []), .handler]
  have computed : (Run.steps? (system {}) (Prompt {}) started labels).map
      (fun result => ((), signals result.2)) = some ((), [.ready, .received [7], .closed]) := by
    decide +kernel
  obtain ⟨⟨state, log⟩, ran, same⟩ := Option.map_eq_some_iff.mp computed
  have run := Run.of_steps? ran
  exact ⟨log, state, run, (Prod.mk.inj same).2, closed_is_last {} run⟩

/-- The remote end is closed and the ready deadline expires before a frame was
read: its handler runs behind the one that closes the socket. -/
theorem ready_after_closed :
    ∃ log state, Run (system {}) (fun _ _ => True) started log state ∧
      signals log = [.closed, .ready] ∧
      ¬ ∃ messages error, signals log = messages ++ ending state.peer.isOpen error ∧
        (∀ message ∈ messages, message.isMessage = true) ∧ messages.count .ready ≤ 1 := by
  let labels : List Label :=
    [.handler, .completes (.read .eof []), .completes (.timer .readyDeadline), .handler, .handler]
  have computed : (Run.steps? (system {}) (fun _ _ => True) started labels).map
      (fun result => ((), signals result.2)) = some ((), [.closed, .ready]) := by
    decide +kernel
  obtain ⟨⟨state, log⟩, ran, same⟩ := Option.map_eq_some_iff.mp computed
  have sent : signals log = [.closed, .ready] := (Prod.mk.inj same).2
  refine ⟨log, state, Run.of_steps? ran, sent, ?_⟩
  rintro ⟨messages, error, split, early, _⟩
  rw [sent] at split
  cases opened : state.peer.isOpen with
  | true =>
      have first := early .closed (by simp [ending, opened] at split; simp [← split])
      cases first
  | false =>
      have last := congrArg List.getLast? split
      simp [ending, opened] at last

end Peer

end UnixDomainStream
