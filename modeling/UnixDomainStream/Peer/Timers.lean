import UnixDomainStream.Peer.Signals

/-!
# The timers of a closed peer

Closing the socket cancels every timer.  A handler that arms a timer of a closed
peer afterwards is named here; where none runs, nothing holds a closed peer but
the handlers already queued.
-/

namespace UnixDomainStream

open Library Protocol

/-- Whether the `switch` of `read_body` leaves a closed peer closed without
closing it again, so that the heartbeat deadline armed before it stays. -/
def bodyRearms (options : CommonOptions) (ready : Bool) : Bytes → Bool
  | [] => true
  | type :: buffer =>
      let size := (type :: buffer).length
      match MessageType.ofByte? type with
      | some .heartbeat => true
      | some .userData => decide (size ≤ sizeT (options.maxMessageSize + typeSize))
      | some .request | some .response =>
          decide (typeSize + requestIdSize ≤ size) &&
            decide (size ≤ sizeT (options.maxMessageSize + typeSize + requestIdSize))
      | some .healthCheck => !ready
      | some .healthCheckResponse => true
      | none => false

/-- Whether a handler leaves a peer with a timer armed on which `close_socket` has been
executed. -/
def PeerHandler.rearms (options : CommonOptions) (peer : Peer) : PeerHandler → Bool
  | .start => peer.closedOnExecutor
  | .timer .heartbeatTimer _ errorCode =>
      -- the refused heartbeat closes the socket before the timer is started again
      errorCode == .success && peer.isOpen &&
        (!validOutgoingFrame options makeHeartbeatFrame ||
          decide (options.maxSendQueueSize ≤ peer.writeQueue.length))
  | .readHeader errorCode bytes =>
      peer.closedOnExecutor && errorCode == .success && acceptsHeader options bytes
  | .readBody errorCode bytes =>
      peer.closedOnExecutor && errorCode == .success && bytes.length == peer.readBody.length &&
        bodyRearms options peer.ready bytes
  | _ => false

/-- No wait, read or write is outstanding. -/
structure Peer.Released (peer : Peer) : Prop where
  waits : ∀ name, peer.waits name = none
  reading : peer.reading = none
  writing : peer.writing = none

theorem Peer.Released.idle {peer : Peer} (released : peer.Released) : peer.idle = true := by
  simp [Peer.idle, released.waits, released.reading, released.writing]

/-- Once `close_socket` has been executed, the socket is closed and nothing is outstanding. -/
def Peer.Settled (peer : Peer) : Prop :=
  peer.closedOnExecutor = true → peer.isOpen = false ∧ peer.Released

namespace PeerTurn

def Shut (turn : PeerTurn) : Prop := turn.peer.Settled

variable {turn : PeerTurn}

theorem Shut.of_unexecuted (unexecuted : turn.peer.closedOnExecutor = false) : turn.Shut :=
  fun executed => by simp [unexecuted] at executed

theorem Shut.unexecuted (shut : turn.Shut) (opened : turn.peer.isOpen = true) :
    turn.peer.closedOnExecutor = false := by
  cases executed : turn.peer.closedOnExecutor with
  | false => rfl
  | true => simp [(shut executed).1] at opened

/-! Only `close_socket` sets the flag. -/

theorem ensureReady_closedOnExecutor (turn : PeerTurn) :
    turn.ensureReady.peer.closedOnExecutor = turn.peer.closedOnExecutor := by
  unfold ensureReady
  split <;> rfl

/-- A frame that is accepted closes nothing. -/
theorem pushFrame_closedOnExecutor (options : CommonOptions) {frame : Bytes}
    (accepted : ¬ ((!validOutgoingFrame options frame) = true ∨
      turn.peer.writeQueue.length ≥ options.maxSendQueueSize)) :
    (turn.pushFrame options frame).peer.closedOnExecutor = turn.peer.closedOnExecutor := by
  unfold pushFrame
  rw [if_neg accepted]
  dsimp only
  split
  · split
    · exact (write_quiet _).closedOnExecutor
    · rfl
  · rfl

theorem Shut.cancel (shut : turn.Shut) (name : PeerTimer) : (turn.cancel name).Shut := by
  intro executed
  obtain ⟨closed, released⟩ := shut executed
  refine ⟨closed, fun other => ?_, released.reading, released.writing⟩
  by_cases same : other = name
  · simp [PeerTurn.cancel, same]
  · simp [PeerTurn.cancel, same, released.waits]

theorem close_shut (turn : PeerTurn) : turn.close.Shut := by
  have socket : turn.closeSocket.peer.Released := by
    refine ⟨fun name => ?_, rfl, rfl⟩
    cases name <;> simp [closeSocket, abortSocket, PeerTurn.cancel]
  refine fun _ => ⟨close_isOpen turn, ?_⟩
  unfold close
  dsimp only
  split <;> exact socket

theorem handleError_shut {errorCode : ErrorCode} (genuine : errorCode ≠ .operationAborted)
    (turn : PeerTurn) : (turn.handleError errorCode).Shut := by
  rw [handleError, if_neg genuine]
  exact close_shut _

theorem Shut.handleError (shut : turn.Shut) (errorCode : ErrorCode) :
    (turn.handleError errorCode).Shut := by
  by_cases aborted : errorCode = .operationAborted
  · rwa [PeerTurn.handleError, if_pos aborted]
  · exact handleError_shut aborted turn

theorem Shut.pushFrame (shut : turn.Shut) (options : CommonOptions) (frame : Bytes) :
    (turn.pushFrame options frame).Shut := by
  by_cases refused : (!validOutgoingFrame options frame) = true ∨
      turn.peer.writeQueue.length ≥ options.maxSendQueueSize
  · unfold PeerTurn.pushFrame
    split
    · exact shut.handleError _
    · exact shut
  · cases opened : turn.peer.isOpen with
    | true =>
        exact .of_unexecuted
          ((pushFrame_closedOnExecutor options refused).trans (shut.unexecuted opened))
    | false => simpa [PeerTurn.pushFrame, opened] using shut

theorem Shut.ensureReady (shut : turn.Shut) : turn.ensureReady.Shut := by
  unfold PeerTurn.ensureReady
  split
  · exact shut
  · have raised : Shut { turn with peer := { turn.peer with ready := true } } := fun executed =>
      ⟨(shut executed).1, (shut executed).2.waits, (shut executed).2.reading,
        (shut executed).2.writing⟩
    exact raised.cancel .readyDeadline

theorem Shut.write (shut : turn.Shut) : turn.write.Shut := by
  cases opened : turn.peer.isOpen with
  | true =>
      exact .of_unexecuted ((write_quiet turn).closedOnExecutor.trans (shut.unexecuted opened))
  | false =>
      have same : turn.write = turn := by
        unfold PeerTurn.write
        split
        · rfl
        · simp [opened]
      rwa [same]

/-- A body finds that `close_socket` has not been executed, or it is refused and closes the
socket again. -/
theorem readMessage_shut (options : CommonOptions)
    (fine : turn.peer.closedOnExecutor = false ∨
      bodyRearms options turn.peer.ready turn.peer.readBody = false) :
    (turn.readMessage options).Shut := by
  have ready : turn.peer.closedOnExecutor = false →
      turn.ensureReady.peer.closedOnExecutor = false := fun unexecuted =>
    (ensureReady_closedOnExecutor turn).trans unexecuted
  have goesOn : ∀ turn : PeerTurn, turn.peer.closedOnExecutor = false → turn.readHeader.Shut :=
    fun turn unexecuted =>
      .of_unexecuted ((readHeader_quiet turn).closedOnExecutor.trans unexecuted)
  have requested : ∀ signal : UInt64 → Bytes → Signal,
      (turn.peer.closedOnExecutor = false ∨
        (decide (typeSize + requestIdSize ≤ turn.peer.readBody.length) &&
          decide (turn.peer.readBody.length ≤
            sizeT (options.maxMessageSize + typeSize + requestIdSize))) = false) →
      (turn.readRequestResponse options signal).Shut := by
    intro signal fine
    unfold readRequestResponse
    dsimp only
    rw [ensureReady_readBody]
    split
    · exact handleError_shut (by decide) _
    case isFalse inRange =>
      have unexecuted : turn.peer.closedOnExecutor = false := by
        refine fine.resolve_right fun outside => ?_
        simp only [Bool.and_eq_false_iff, decide_eq_false_iff_not] at outside
        omega
      split
      · exact .of_unexecuted (ready unexecuted)
      · exact goesOn _ (ready unexecuted)
  cases stored : turn.peer.readBody with
  | nil =>
      have unexecuted := fine.resolve_right (by simp [bodyRearms, stored])
      simp only [readMessage, stored]
      exact .of_unexecuted unexecuted
  | cons type buffer =>
      simp only [bodyRearms, stored] at fine
      simp only [readMessage, stored]
      cases known : MessageType.ofByte? type with
      | none => exact handleError_shut (by decide) _
      | some messageType =>
          rw [known] at fine
          cases messageType with
          | heartbeat => exact goesOn _ (fine.resolve_right (by simp))
          | userData =>
              change (turn.readUserData options).Shut
              unfold readUserData
              dsimp only
              rw [ensureReady_readBody, stored]
              split
              · exact handleError_shut (by decide) _
              case isFalse inRange =>
                have unexecuted := fine.resolve_right (by
                  simp only [decide_eq_false_iff_not]
                  omega)
                exact goesOn _ (ready unexecuted)
          | request => exact requested _ (by rwa [stored])
          | response => exact requested _ (by rwa [stored])
          | healthCheck =>
              change (turn.readHealthCheck options).Shut
              unfold readHealthCheck
              split
              · exact handleError_shut (by decide) _
              case isFalse unready =>
                have unexecuted := fine.resolve_right (by simp [unready])
                have classified : Shut
                    { turn with peer := { turn.peer with closeAfterWrite := true } } :=
                  .of_unexecuted unexecuted
                exact classified.pushFrame options _
          | healthCheckResponse => exact goesOn _ (fine.resolve_right (by simp))

/-- A handler that does not re-arm keeps the peer settled. -/
theorem run_shut (options : CommonOptions) {handler : PeerHandler} {peer : Peer}
    (settled : peer.Settled) (sober : handler.rearms options peer = false) :
    (run options handler { peer }).Shut := by
  have start : Shut { peer } := settled
  cases handler with
  | start =>
      have unexecuted : peer.closedOnExecutor = false := by
        simpa only [PeerHandler.rearms] using sober
      have waits := (asyncWait_quiet .readyDeadline { peer }).trans
        ((asyncWait_quiet .heartbeatTimer _).trans (asyncWait_quiet .heartbeatDeadline _))
      exact .of_unexecuted
        ((waits.trans (readHeader_quiet _)).closedOnExecutor.trans unexecuted)
  | close completion => exact close_shut { peer }
  | pushFrame frame => exact start.pushFrame options frame
  | timer name wait errorCode =>
      simp only [run]
      split
      case isTrue expired =>
        cases name with
        | readyDeadline => exact start.ensureReady
        | heartbeatTimer =>
            simp only [onTimer]
            split
            case isTrue opened =>
              have opened' : peer.isOpen = true := opened
              have accepted : ¬ ((!validOutgoingFrame options makeHeartbeatFrame) = true ∨
                  peer.writeQueue.length ≥ options.maxSendQueueSize) := by
                simpa [PeerHandler.rearms, expired, opened'] using sober
              exact .of_unexecuted
                ((pushFrame_closedOnExecutor options accepted).trans (start.unexecuted opened))
            case isFalse => exact start
        | heartbeatDeadline => exact start.handleError _
        | readDeadline => exact start.handleError _
        | writeDeadline => exact start.handleError _
      case isFalse => exact start
  | readHeader errorCode bytes =>
      have cancelled := start.cancel .readDeadline
      simp only [run, onReadHeader]
      split
      · split
        · exact close_shut _
        · exact cancelled.handleError _
      case isFalse succeeded =>
        split
        · exact cancelled.handleError _
        case isFalse size =>
          split
          · exact cancelled.handleError _
          case isFalse inRange =>
            have accepted : acceptsHeader options bytes = true := by
              simp only [acceptsHeader, Bool.and_eq_true, decide_eq_true_eq, beq_iff_eq]
              omega
            have unexecuted : peer.closedOnExecutor = false := by
              simp only [ne_eq, Decidable.not_not] at succeeded
              simpa [PeerHandler.rearms, succeeded, accepted] using sober
            exact .of_unexecuted ((readBody_quiet _).closedOnExecutor.trans unexecuted)
  | readBody errorCode bytes =>
      have cancelled := start.cancel .readDeadline
      simp only [run, onReadBody]
      split
      · exact cancelled.handleError _
      case isFalse succeeded =>
        split
        · exact cancelled.handleError _
        case isFalse size =>
          have own : bytes.length = peer.readBody.length := Decidable.not_not.mp size
          refine readMessage_shut options ?_
          simp only [ne_eq, Decidable.not_not] at succeeded
          cases executed : peer.closedOnExecutor with
          | false => exact .inl executed
          | true =>
              have refused : bodyRearms options peer.ready bytes = false := by
                simpa [PeerHandler.rearms, succeeded, executed, own] using sober
              exact .inr refused
  | write errorCode =>
      have cancelled := start.cancel .writeDeadline
      simp only [run, onWrite]
      split
      · exact cancelled.handleError _
      · split
        · exact cancelled
        · split
          · exact close_shut _
          · refine Shut.write ?_
            intro executed
            obtain ⟨closed, released⟩ := cancelled executed
            exact ⟨closed, released.waits, released.reading, released.writing⟩

end PeerTurn

namespace Peer

/-- No handler re-arms a timer of a closed peer. -/
def Sober (options : CommonOptions) (state : State) : Label → Prop
  | .handler => ∀ handler ∈ state.handlers.head?, handler.rearms options state.peer = false
  | _ => True

instance (options : CommonOptions) (state : State) (label : Label) :
    Decidable (Sober options state label) :=
  match label with
  | .handler => inferInstanceAs (Decidable (∀ handler ∈ state.handlers.head?, _))
  | .asyncClose _ => .isTrue trivial
  | .asyncPushFrame _ => .isTrue trivial
  | .completes _ => .isTrue trivial

/-- An operation that completes is outstanding. -/
theorem Completes.settled {peer after : Peer} {completion : PeerCompletion}
    {handler : PeerHandler} (completes : Completes peer completion after handler)
    (settled : peer.Settled) : after.Settled := by
  have unexecuted : peer.closedOnExecutor = true → False := by
    intro executed
    have released := (settled executed).2
    cases completes with
    | timer waiting => simp [released.waits] at waiting
    | read reading => simp [released.reading] at reading
    | write writing => simp [released.writing] at writing
  cases completes <;> exact fun executed => (unexecuted executed).elim

theorem step_settled {options : CommonOptions} {state state' : State} {label : Label}
    {events : List Event} (settled : state.peer.Settled) (sober : Sober options state label)
    (step : (system options).step? state label = some (state', events)) :
    state'.peer.Settled := by
  cases step_of_eq_some step with
  | @handler handler rest queued =>
      exact PeerTurn.run_shut options settled (sober handler (by simp [queued]))
  | asyncClose completion => exact settled
  | asyncPushFrame frame => exact settled
  | completes completed => exact (completes_of_eq_some completed).settled settled

theorem run_settled {options : CommonOptions} {isOpen : Bool} {log : List Event} {state : State}
    (run : Run (system options) (Sober options) (startedOn isOpen) log state) :
    state.peer.Settled := by
  induction run with
  | refl =>
      intro executed
      cases executed
  | next _ sober step ih => exact step_settled ih sober step

/-- In every run in which no handler re-arms a timer after `close_socket` has been executed,
none of the timers is armed from then on, and no other operation holds the peer either,
whether its socket was open or closed when it was constructed. -/
theorem closed_holds_no_timer (options : CommonOptions) (isOpen : Bool) {log : List Event}
    {state : State} (run : Run (system options) (Sober options) (startedOn isOpen) log state)
    (executed : state.peer.closedOnExecutor = true) :
    (∀ name, state.peer.waits name = none) ∧ state.peer.idle = true := by
  have released := (run_settled run executed).2
  exact ⟨released.waits, released.idle⟩

/-- A peer constructed on a closed socket arms its timers; `async_close` cancels them. -/
theorem closed_holds_no_timer_async_close :
    ∃ log state, Run (system {}) (Sober {}) (startedOn false) log state ∧
      state.peer.closedOnExecutor = true ∧
      (∀ name, state.peer.waits name = none) ∧ state.peer.idle = true := by
  let labels : List Label := [.handler, .asyncClose false, .handler]
  have computed : (Run.steps? (system {}) (Sober {}) (startedOn false) labels).map
      (fun result => (result.1.peer.closedOnExecutor, ())) = some (true, ()) := by
    decide +kernel
  obtain ⟨⟨state, log⟩, ran, same⟩ := Option.map_eq_some_iff.mp computed
  have executed : state.peer.closedOnExecutor = true := (Prod.mk.inj same).1
  have run := Run.of_steps? ran
  exact ⟨log, state, run, executed, closed_holds_no_timer {} false run executed⟩

/-- The heartbeat finds the write queue full: the refusal closes the socket, and
then the heartbeat timer is started again. -/
theorem closed_holds_heartbeat_timer :
    ∃ log state, Run (system { maxSendQueueSize := 1 }) (fun _ _ => True) started log state ∧
      state.peer.closedOnExecutor = true ∧ state.peer.waits .heartbeatTimer ≠ none := by
  let labels : List Label :=
    [.handler, .asyncPushFrame (makeUserDataFrame [7]), .handler,
      .completes (.timer .heartbeatTimer), .handler]
  have computed : (Run.steps? (system { maxSendQueueSize := 1 }) (fun _ _ => True) started
      labels).map (fun result => (result.1.peer.closedOnExecutor,
        (result.1.peer.waits .heartbeatTimer).isSome)) = some (true, true) := by
    decide +kernel
  obtain ⟨⟨state, log⟩, ran, same⟩ := Option.map_eq_some_iff.mp computed
  obtain ⟨executed, armed⟩ := Prod.mk.inj same
  exact ⟨log, state, Run.of_steps? ran, executed, Option.isSome_iff_ne_none.mp armed⟩

end Peer

end UnixDomainStream
