import UnixDomainStream.Library.Appends
import UnixDomainStream.Peer

/-!
# What one handler of a peer reports

A handler reports at most one `ready`, one message, one error and one `closed`,
in this order.  `closed` is reported exactly when the handler closes the open
socket.  The handlers it posts are those of operations that failed.
-/

namespace UnixDomainStream

open Protocol Library

/-- A handler of an operation that did not succeed. -/
def PeerHandler.failed : PeerHandler → Bool
  | .timer _ _ errorCode => errorCode != .success
  | .readHeader errorCode _ => errorCode != .success
  | .readBody errorCode _ => errorCode != .success
  | .write errorCode => errorCode != .success
  | _ => false

/-- The `closed` signal of a handler that took the peer from `before` to `after`. -/
def closedSignals (before after : Peer) : List Signal :=
  if before.isOpen && !after.isOpen then [.closed] else []

/-- The `ready` signal of a handler that took the peer from `before` to `after`. -/
def readySignals (before after : Peer) : List Signal :=
  if !before.ready && after.ready then [.ready] else []

/-- The body of a response frame with the given id and payload. -/
structure IsResponse (body : Bytes) (requestId : UInt64) (payload : Bytes) : Prop where
  type : body.head?.bind MessageType.ofByte? = some .response
  requestId : decodeUint64? body typeSize = some requestId
  payload : payload = body.drop (typeSize + requestIdSize)

namespace PeerTurn

/-- A piece of a handler that only starts or cancels operations. -/
structure Quiet (before after : PeerTurn) : Prop where
  isOpen : after.peer.isOpen = before.peer.isOpen
  closedOnExecutor : after.peer.closedOnExecutor = before.peer.closedOnExecutor
  ready : after.peer.ready = before.peer.ready
  signals : after.signals = before.signals
  completed : after.completed = before.completed
  posted : Appends (fun handler => handler.failed = true) before.posted after.posted

/-- A piece of a handler that may report one error and close the socket. -/
structure Settles (before after : PeerTurn) : Prop where
  isOpen : after.peer.isOpen = true → before.peer.isOpen = true
  ready : after.peer.ready = before.peer.ready
  signals : ∃ error : Option ErrorCode, error ≠ some .success ∧
    after.signals = before.signals ++
      (error.toList.map .errorOccurred ++ closedSignals before.peer after.peer)
  completed : after.completed = before.completed
  posted : Appends (fun handler => handler.failed = true) before.posted after.posted

namespace Quiet

/-- An update of the buffers or the write queue. -/
theorem of_eq {before after : PeerTurn} (isOpen : after.peer.isOpen = before.peer.isOpen)
    (closedOnExecutor : after.peer.closedOnExecutor = before.peer.closedOnExecutor)
    (ready : after.peer.ready = before.peer.ready) (signals : after.signals = before.signals)
    (completed : after.completed = before.completed)
    (posted : after.posted = before.posted) : Quiet before after :=
  ⟨isOpen, closedOnExecutor, ready, signals, completed, posted ▸ Appends.refl _⟩

theorem refl (turn : PeerTurn) : Quiet turn turn := of_eq rfl rfl rfl rfl rfl rfl

theorem trans {first second third : PeerTurn} (left : Quiet first second)
    (right : Quiet second third) : Quiet first third :=
  ⟨right.isOpen.trans left.isOpen, right.closedOnExecutor.trans left.closedOnExecutor,
    right.ready.trans left.ready, right.signals.trans left.signals,
    right.completed.trans left.completed, left.posted.trans right.posted⟩

theorem settles {before after : PeerTurn} (quiet : Quiet before after) : Settles before after := by
  refine ⟨fun opened => quiet.isOpen ▸ opened, quiet.ready, ⟨none, by simp, ?_⟩,
    quiet.completed, quiet.posted⟩
  simp [closedSignals, quiet.isOpen, quiet.signals]

end Quiet

namespace Settles

theorem of_eq {before after : PeerTurn} (isOpen : after.peer.isOpen = before.peer.isOpen)
    (ready : after.peer.ready = before.peer.ready) (signals : after.signals = before.signals)
    (completed : after.completed = before.completed)
    (posted : after.posted = before.posted) : Settles before after := by
  refine ⟨fun opened => isOpen ▸ opened, ready, ⟨none, by simp, ?_⟩, completed,
    posted ▸ Appends.refl _⟩
  simp [closedSignals, isOpen, signals]

theorem after_quiet {first second third : PeerTurn} (left : Quiet first second)
    (right : Settles second third) : Settles first third := by
  obtain ⟨error, genuine, reported⟩ := right.signals
  refine ⟨fun opened => left.isOpen ▸ right.isOpen opened, right.ready.trans left.ready,
    ⟨error, genuine, ?_⟩, right.completed.trans left.completed, left.posted.trans right.posted⟩
  rw [reported, left.signals, closedSignals, closedSignals, left.isOpen]

theorem then_quiet {first second third : PeerTurn} (left : Settles first second)
    (right : Quiet second third) : Settles first third := by
  obtain ⟨error, genuine, reported⟩ := left.signals
  refine ⟨fun opened => left.isOpen (right.isOpen ▸ opened), right.ready.trans left.ready,
    ⟨error, genuine, ?_⟩, right.completed.trans left.completed, left.posted.trans right.posted⟩
  rw [right.signals, reported, closedSignals, closedSignals, right.isOpen]

end Settles

/-! ## The pieces of a handler -/

theorem cancel_quiet (name : PeerTimer) (turn : PeerTurn) : Quiet turn (turn.cancel name) := by
  refine ⟨rfl, rfl, rfl, rfl, rfl, Appends.map ?_ _⟩
  intro wait _
  rfl

theorem asyncWait_quiet (name : PeerTimer) (turn : PeerTurn) : Quiet turn (turn.asyncWait name) :=
  let cancelled := cancel_quiet name turn
  ⟨cancelled.isOpen, cancelled.closedOnExecutor, cancelled.ready, cancelled.signals,
    cancelled.completed, cancelled.posted⟩

theorem readHandler_failed {operation : PendingRead} {errorCode : ErrorCode} {bytes : Bytes}
    (failed : errorCode ≠ .success) :
    (readHandler operation errorCode bytes).failed = true := by
  cases operation <;> simpa [readHandler, PeerHandler.failed] using failed

theorem asyncRead_quiet (operation : PendingRead) (turn : PeerTurn) :
    Quiet turn (turn.asyncRead operation) := by
  unfold asyncRead
  split
  · exact Quiet.of_eq rfl rfl rfl rfl rfl rfl
  · refine ⟨rfl, rfl, rfl, rfl, rfl, Appends.single ?_ _⟩
    exact readHandler_failed (by decide)

theorem readHeader_quiet (turn : PeerTurn) : Quiet turn turn.readHeader := by
  unfold readHeader
  split
  · exact (asyncWait_quiet .readDeadline turn).trans (asyncRead_quiet .header _)
  · exact Quiet.refl turn

theorem readBody_quiet (turn : PeerTurn) : Quiet turn turn.readBody :=
  (asyncWait_quiet .readDeadline turn).trans (asyncRead_quiet _ _)

theorem write_quiet (turn : PeerTurn) : Quiet turn turn.write := by
  unfold write
  split
  · exact Quiet.refl turn
  · split
    · have waiting := asyncWait_quiet .writeDeadline turn
      exact ⟨waiting.isOpen, waiting.closedOnExecutor, waiting.ready, waiting.signals,
        waiting.completed, waiting.posted⟩
    · exact Quiet.refl turn

theorem closeSocket_posted (turn : PeerTurn) :
    Appends (fun handler => handler.failed = true) turn.posted turn.closeSocket.posted := by
  let executed := { turn with peer := { turn.peer with closedOnExecutor := true } }
  have cancelled := ((((cancel_quiet .readyDeadline executed).trans
    (cancel_quiet .heartbeatTimer _)).trans (cancel_quiet .heartbeatDeadline _)).trans
    (cancel_quiet .readDeadline _)).trans (cancel_quiet .writeDeadline _)
  refine (cancelled.posted.trans (Appends.map ?_ _)).trans (Appends.map ?_ _)
  · exact fun _ _ => readHandler_failed (by decide)
  · exact fun _ _ => rfl

theorem close_isOpen (turn : PeerTurn) : turn.close.peer.isOpen = false := by
  unfold close
  cases opened : turn.peer.isOpen <;> simp [closeSocket, abortSocket, enqueue]

theorem close_ready (turn : PeerTurn) : turn.close.peer.ready = turn.peer.ready := by
  unfold close
  cases opened : turn.peer.isOpen <;> simp [closeSocket, abortSocket, enqueue, cancel]

theorem close_completed (turn : PeerTurn) : turn.close.completed = turn.completed := by
  unfold close
  cases opened : turn.peer.isOpen <;> simp [closeSocket, abortSocket, enqueue, cancel]

theorem close_signals (turn : PeerTurn) :
    turn.close.signals = turn.signals ++ closedSignals turn.peer turn.close.peer := by
  rw [closedSignals, close_isOpen]
  unfold close
  cases opened : turn.peer.isOpen <;> simp [closeSocket, abortSocket, enqueue, cancel]

theorem close_posted (turn : PeerTurn) :
    Appends (fun handler => handler.failed = true) turn.posted turn.close.posted := by
  have posted : turn.close.posted = turn.closeSocket.posted := by
    unfold close
    cases opened : turn.peer.isOpen <;> simp [enqueue]
  rw [posted]
  exact closeSocket_posted turn

theorem close_settles (turn : PeerTurn) : Settles turn turn.close where
  isOpen opened := by simp [close_isOpen] at opened
  ready := close_ready turn
  signals := ⟨none, by simp, by simp [close_signals]⟩
  completed := close_completed turn
  posted := close_posted turn

theorem handleError_settles {errorCode : ErrorCode} (genuine : errorCode ≠ .success)
    (turn : PeerTurn) : Settles turn (turn.handleError errorCode) := by
  unfold handleError
  split
  · exact (Quiet.refl turn).settles
  · have closed := close_settles (turn.enqueue (.errorOccurred errorCode))
    refine ⟨closed.isOpen, closed.ready, ⟨some errorCode, by simpa using genuine, ?_⟩,
      closed.completed, closed.posted⟩
    rw [close_signals]
    simp [enqueue]

theorem pushFrame_settles (options : CommonOptions) (frame : Bytes) (turn : PeerTurn) :
    Settles turn (turn.pushFrame options frame) := by
  unfold pushFrame
  split
  · split
    · exact handleError_settles (by decide) turn
    · dsimp only
      split
      · refine Settles.after_quiet ?_ (write_quiet _).settles
        exact Quiet.of_eq rfl rfl rfl rfl rfl rfl
      · exact Settles.of_eq rfl rfl rfl rfl rfl
  · exact (Quiet.refl turn).settles

/-! ## A whole handler -/

/-- The message a handler may report is the content of the body it has read. -/
def messageOf (handler : PeerHandler) (message : Signal) : Prop :=
  ∃ body, handler = .readBody .success body ∧
    match message with
    | .received buffer => ∃ type, body = type :: buffer ∧ MessageType.ofByte? type = some .userData
    | .requestReceived requestId buffer => ∃ type, body.head? = some type ∧
        MessageType.ofByte? type = some .request ∧
        decodeUint64? body typeSize = some requestId ∧ buffer = body.drop (typeSize + requestIdSize)
    | .responseReceived requestId buffer => ∃ type, body.head? = some type ∧
        MessageType.ofByte? type = some .response ∧
        decodeUint64? body typeSize = some requestId ∧ buffer = body.drop (typeSize + requestIdSize)
    | .healthCheckResponseReceived => True
    | _ => False

/-- A response that a handler reports is the body it has read. -/
theorem messageOf_response {handler : PeerHandler} {requestId : UInt64} {buffer : Bytes}
    (message : messageOf handler (.responseReceived requestId buffer)) :
    ∃ body, handler = .readBody .success body ∧ IsResponse body requestId buffer := by
  obtain ⟨body, read, type, head, response, decoded, payload⟩ := message
  exact ⟨body, read, by rw [head]; exact response, decoded, payload⟩

/-- Whether a handler calls `ensure_ready()`. -/
def raises (peer : Peer) : PeerHandler → Bool
  | .timer .readyDeadline _ errorCode => errorCode == .success
  | .readBody errorCode body =>
      errorCode == .success && body.length == peer.readBody.length &&
        match body.head?.bind MessageType.ofByte? with
        | some .userData | some .request | some .response => true
        | _ => false
  | _ => false

/-- What a whole handler does to the flags and the reports of its peer. -/
structure Shape (handler : PeerHandler) (before : Peer) (turn : PeerTurn) : Prop where
  isOpen : turn.peer.isOpen = true → before.isOpen = true
  ready : turn.peer.ready = (before.ready || raises before handler)
  signals : ∃ (message : Option Signal) (error : Option ErrorCode),
    (∀ sent ∈ message, messageOf handler sent) ∧ error ≠ some .success ∧
    turn.signals = readySignals before turn.peer ++ (message.toList ++
      (error.toList.map .errorOccurred ++ closedSignals before turn.peer))
  completed : turn.completed = decide (handler = .close true)
  posted : ∀ handler ∈ turn.posted, handler.failed = true

/-- A handler before it reports an error or closes the socket. -/
structure Reported (handler : PeerHandler) (before : Peer) (message : Option Signal)
    (turn : PeerTurn) : Prop where
  isOpen : turn.peer.isOpen = before.isOpen
  ready : turn.peer.ready = (before.ready || raises before handler)
  source : ∀ sent ∈ message, messageOf handler sent
  signals : turn.signals = readySignals before turn.peer ++ message.toList
  completed : turn.completed = false
  posted : ∀ handler ∈ turn.posted, handler.failed = true

theorem Quiet.reported {handler : PeerHandler} {before : Peer} {turn : PeerTurn}
    (quiet : Quiet { peer := before } turn) (unraised : raises before handler = false) :
    Reported handler before none turn := by
  have kept : turn.peer.ready = before.ready := quiet.ready
  refine ⟨quiet.isOpen, by simp [kept, unraised], by simp, ?_, quiet.completed,
    quiet.posted.forall_mem (by simp)⟩
  rw [quiet.signals]
  cases before.ready <;> simp [readySignals, kept]

theorem Quiet.reported_ensureReady {handler : PeerHandler} {before : Peer} {turn : PeerTurn}
    (quiet : Quiet { peer := before } turn) (raised : raises before handler = true) :
    Reported handler before none turn.ensureReady := by
  have failed := quiet.posted.forall_mem (by simp)
  have kept : turn.peer.ready = before.ready := quiet.ready
  have silent : turn.signals = [] := quiet.signals
  have opened : turn.peer.isOpen = before.isOpen := quiet.isOpen
  have none : turn.completed = false := quiet.completed
  cases ready : before.ready with
  | true =>
      simp only [ensureReady, kept, ready, if_true]
      exact ⟨opened, by simp [kept, ready], by simp, by simp [silent, readySignals, ready], none,
        failed⟩
  | false =>
      simp only [ensureReady, kept, ready]
      refine ⟨opened, by simp [enqueue, cancel, raised], by simp,
        by simp [enqueue, cancel, silent, readySignals, ready], none, ?_⟩
      exact (cancel_quiet .readyDeadline _).posted.forall_mem failed

theorem Reported.enqueue {handler : PeerHandler} {before : Peer} {turn : PeerTurn}
    (reported : Reported handler before none turn) {message : Signal}
    (source : messageOf handler message) :
    Reported handler before (some message) (turn.enqueue message) := by
  refine ⟨reported.isOpen, reported.ready, by simpa using source, ?_, reported.completed,
    reported.posted⟩
  rw [PeerTurn.enqueue, reported.signals]
  simp

theorem Reported.shape {handler : PeerHandler} {before : Peer} {message : Option Signal}
    {turn final : PeerTurn} (reported : Reported handler before message turn)
    (settles : Settles turn final) (other : ∀ completion, handler ≠ .close completion) :
    Shape handler before final := by
  obtain ⟨error, genuine, settled⟩ := settles.signals
  refine ⟨fun opened => reported.isOpen ▸ settles.isOpen opened,
    settles.ready.trans reported.ready, ⟨message, error, reported.source, genuine, ?_⟩, ?_,
    settles.posted.forall_mem reported.posted⟩
  · rw [settled, reported.signals]
    simp [readySignals, closedSignals, settles.ready, reported.isOpen, List.append_assoc]
  · rw [settles.completed, reported.completed]
    cases handler with
    | close completion => exact absurd rfl (other completion)
    | _ => rfl

/-! ### The handlers one by one -/

theorem start_shape (options : CommonOptions) (peer : Peer) :
    Shape .start peer (run options .start { peer }) := by
  have waits := (asyncWait_quiet .readyDeadline { peer }).trans
    ((asyncWait_quiet .heartbeatTimer _).trans (asyncWait_quiet .heartbeatDeadline _))
  have quiet := waits.trans (readHeader_quiet _)
  have reported : Reported .start peer none _ := quiet.reported rfl
  exact reported.shape (Quiet.refl _).settles (by simp)

theorem close_shape (options : CommonOptions) (peer : Peer) (completion : Bool) :
    Shape (.close completion) peer (run options (.close completion) { peer }) := by
  have settles := close_settles { peer }
  refine ⟨settles.isOpen, by simp [run, close_ready, raises], ⟨none, none, by simp, by simp, ?_⟩,
    ?_, settles.posted.forall_mem (by simp)⟩
  · simp only [run, close_signals]
    cases ready : peer.ready <;> simp [readySignals, close_ready, ready]
  · simp [run]

theorem onTimer_shape (options : CommonOptions) (peer : Peer) (name : PeerTimer) (wait : Nat)
    (errorCode : ErrorCode) :
    Shape (.timer name wait errorCode) peer
      (run options (.timer name wait errorCode) { peer }) := by
  simp only [run]
  split
  case isTrue expired =>
    subst expired
    cases name with
    | readyDeadline =>
        exact ((Quiet.refl { peer }).reported_ensureReady rfl).shape (Quiet.refl _).settles
          (by simp)
    | heartbeatTimer =>
        refine ((Quiet.refl { peer }).reported rfl).shape ?_ (by simp)
        simp only [onTimer]
        split
        · exact (pushFrame_settles options _ _).then_quiet (asyncWait_quiet _ _)
        · exact (Quiet.refl _).settles
    | heartbeatDeadline =>
        exact ((Quiet.refl { peer }).reported rfl).shape (handleError_settles (by decide) _)
          (by simp)
    | readDeadline =>
        exact ((Quiet.refl { peer }).reported rfl).shape (handleError_settles (by decide) _)
          (by simp)
    | writeDeadline =>
        exact ((Quiet.refl { peer }).reported rfl).shape (handleError_settles (by decide) _)
          (by simp)
  case isFalse cancelled =>
    refine ((Quiet.refl { peer }).reported ?_).shape (Quiet.refl _).settles (by simp)
    cases name <;> simp [raises, cancelled]

theorem onReadHeader_shape (options : CommonOptions) (peer : Peer) (errorCode : ErrorCode)
    (bytes : Bytes) :
    Shape (.readHeader errorCode bytes) peer
      (run options (.readHeader errorCode bytes) { peer }) := by
  refine ((cancel_quiet .readDeadline { peer }).reported rfl).shape ?_ (by simp)
  simp only [run, onReadHeader]
  split
  case isTrue failed =>
    split
    · exact close_settles _
    · exact handleError_settles failed _
  case isFalse =>
    split
    · exact handleError_settles (by decide) _
    · split
      · exact handleError_settles (by decide) _
      · refine Settles.after_quiet ?_ (readBody_quiet _).settles
        exact Quiet.of_eq rfl rfl rfl rfl rfl rfl

theorem onWrite_shape (options : CommonOptions) (peer : Peer) (errorCode : ErrorCode) :
    Shape (.write errorCode) peer (run options (.write errorCode) { peer }) := by
  refine ((cancel_quiet .writeDeadline { peer }).reported rfl).shape ?_ (by simp)
  simp only [run, onWrite]
  split
  case isTrue failed => exact handleError_settles failed _
  case isFalse =>
    split
    · exact Settles.of_eq rfl rfl rfl rfl rfl
    · split
      · refine Settles.after_quiet ?_ (close_settles _)
        exact Quiet.of_eq rfl rfl rfl rfl rfl rfl
      · refine Settles.after_quiet ?_ (write_quiet _).settles
        exact Quiet.of_eq rfl rfl rfl rfl rfl rfl

theorem readUserData_shape (options : CommonOptions) {handler : PeerHandler} {before : Peer}
    {turn : PeerTurn} {type : UInt8} {buffer : Bytes} (quiet : Quiet { peer := before } turn)
    (read : handler = .readBody .success (type :: buffer))
    (body : turn.peer.readBody = type :: buffer)
    (user : MessageType.ofByte? type = some .userData) (raised : raises before handler = true) :
    Shape handler before (turn.readUserData options) := by
  have reported := quiet.reported_ensureReady raised
  have other : ∀ completion, handler ≠ .close completion := by simp [read]
  have kept : turn.ensureReady.peer.readBody = type :: buffer := by
    rw [← body]
    unfold ensureReady
    split <;> rfl
  simp only [readUserData, kept]
  split
  · exact reported.shape (handleError_settles (by decide) _) other
  · have source : messageOf handler (.received buffer) := ⟨_, read, type, rfl, user⟩
    exact (reported.enqueue source).shape (readHeader_quiet _).settles other

theorem readRequestResponse_shape (options : CommonOptions) {handler : PeerHandler}
    {before : Peer} {turn : PeerTurn} {signal : UInt64 → Bytes → Signal}
    (quiet : Quiet { peer := before } turn) (other : ∀ completion, handler ≠ .close completion)
    (source : ∀ requestId, decodeUint64? turn.peer.readBody typeSize = some requestId →
      messageOf handler (signal requestId (turn.peer.readBody.drop (typeSize + requestIdSize))))
    (raised : raises before handler = true) :
    Shape handler before (turn.readRequestResponse options signal) := by
  have reported := quiet.reported_ensureReady raised
  have kept : turn.ensureReady.peer.readBody = turn.peer.readBody := by
    unfold ensureReady
    split <;> rfl
  simp only [readRequestResponse, kept]
  split
  · exact reported.shape (handleError_settles (by decide) _) other
  · split
    · exact reported.shape (Settles.of_eq rfl rfl rfl rfl rfl) other
    case h_2 requestId decoded =>
      exact (reported.enqueue (source requestId decoded)).shape (readHeader_quiet _).settles other

theorem readHealthCheck_settles (options : CommonOptions) (turn : PeerTurn) :
    Settles turn (turn.readHealthCheck options) := by
  unfold readHealthCheck
  split
  · exact handleError_settles (by decide) turn
  · refine Settles.after_quiet ?_ (pushFrame_settles options _ _)
    exact Quiet.of_eq rfl rfl rfl rfl rfl rfl

/-- The `switch` on a complete body. -/
theorem readMessage_shape (options : CommonOptions) {before : Peer} {turn : PeerTurn} {body : Bytes}
    (quiet : Quiet { peer := before } turn) (stored : turn.peer.readBody = body)
    (size : body.length = before.readBody.length) :
    Shape (.readBody .success body) before (turn.readMessage options) := by
  have other : ∀ completion, PeerHandler.readBody .success body ≠ .close completion := by simp
  cases body with
  | nil =>
      have dispatch : turn.readMessage options = { turn with fault := true } := by
        simp [readMessage, stored]
      rw [dispatch]
      exact (quiet.reported (by simp [raises])).shape (Settles.of_eq rfl rfl rfl rfl rfl) other
  | cons type buffer =>
      have raised : raises before (.readBody .success (type :: buffer)) =
          match MessageType.ofByte? type with
          | some .userData | some .request | some .response => true
          | _ => false := by
        simp [raises, ← size]
      simp only [readMessage, stored]
      cases known : MessageType.ofByte? type with
      | none =>
          rw [known] at raised
          exact (quiet.reported raised).shape (handleError_settles (by decide) _) other
      | some messageType =>
          rw [known] at raised
          cases messageType with
          | heartbeat => exact (quiet.reported raised).shape (readHeader_quiet _).settles other
          | userData => exact readUserData_shape options quiet rfl stored known raised
          | request =>
              refine readRequestResponse_shape options quiet other ?_ raised
              intro requestId decoded
              rw [stored] at decoded ⊢
              exact ⟨_, rfl, type, rfl, known, decoded, rfl⟩
          | response =>
              refine readRequestResponse_shape options quiet other ?_ raised
              intro requestId decoded
              rw [stored] at decoded ⊢
              exact ⟨_, rfl, type, rfl, known, decoded, rfl⟩
          | healthCheck =>
              exact (quiet.reported raised).shape (readHealthCheck_settles options _) other
          | healthCheckResponse =>
              have source : messageOf (.readBody .success (type :: buffer))
                  .healthCheckResponseReceived := ⟨_, rfl, trivial⟩
              exact ((quiet.reported raised).enqueue source).shape (readHeader_quiet _).settles
                other

theorem onReadBody_shape (options : CommonOptions) (peer : Peer) (errorCode : ErrorCode)
    (bytes : Bytes) :
    Shape (.readBody errorCode bytes) peer (run options (.readBody errorCode bytes) { peer }) := by
  have cancelled := cancel_quiet .readDeadline { peer }
  have other : ∀ completion, PeerHandler.readBody errorCode bytes ≠ .close completion := by simp
  simp only [run, onReadBody]
  split
  case isTrue failed =>
    refine (cancelled.reported ?_).shape (handleError_settles failed _) other
    simp [raises, failed]
  case isFalse succeeded =>
    rw [ne_eq, Decidable.not_not] at succeeded
    subst succeeded
    split
    case isTrue wrong =>
      refine (cancelled.reported ?_).shape (handleError_settles (by decide) _) other
      have size : ¬ bytes.length = peer.readBody.length := wrong
      simp [raises, size]
    case isFalse right =>
      rw [ne_eq, Decidable.not_not] at right
      refine readMessage_shape options ?_ rfl right
      refine (Quiet.trans cancelled ?_).trans (asyncWait_quiet .heartbeatDeadline _)
      exact Quiet.of_eq rfl rfl rfl rfl rfl rfl

/-- What any handler of a peer does to its flags and reports. -/
theorem run_shape (options : CommonOptions) (handler : PeerHandler) (peer : Peer) :
    Shape handler peer (run options handler { peer }) := by
  cases handler with
  | start => exact start_shape options peer
  | close completion => exact close_shape options peer completion
  | pushFrame frame =>
      exact ((Quiet.refl { peer }).reported rfl).shape (pushFrame_settles options frame _)
        (by simp)
  | timer name wait errorCode => exact onTimer_shape options peer name wait errorCode
  | readHeader errorCode bytes => exact onReadHeader_shape options peer errorCode bytes
  | readBody errorCode bytes => exact onReadBody_shape options peer errorCode bytes
  | write errorCode => exact onWrite_shape options peer errorCode

/-- The close handler leaves the socket closed. -/
theorem run_close_isOpen (options : CommonOptions) (completion : Bool) (peer : Peer) :
    (run options (.close completion) { peer }).peer.isOpen = false :=
  close_isOpen { peer }

end PeerTurn

end UnixDomainStream
