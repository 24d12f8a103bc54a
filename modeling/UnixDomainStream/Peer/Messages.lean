import UnixDomainStream.Peer.Pieces

/-!
# The messages of a peer

A frame of user data or a request that passes the checks of `read_body` is reported
at once, behind `ready` if it is the first frame, and in front of `closed`.  What an
owner must pass on is this sequence.
-/

namespace UnixDomainStream

open Protocol

/-- What an owner passes on to the outside. -/
inductive Message where
  | received (buffer : Bytes)
  | requestReceived (requestId : UInt64) (buffer : Bytes)
  deriving DecidableEq, Repr

/-- The signals that an owner must not lose or reorder. -/
inductive Item where
  | ready
  | message (message : Message)
  | closed
  deriving DecidableEq, Repr

def Signal.message? : Signal → Option Message
  | .received buffer => some (.received buffer)
  | .requestReceived requestId buffer => some (.requestReceived requestId buffer)
  | _ => none

def Signal.item? : Signal → Option Item
  | .ready => some .ready
  | .received buffer => some (.message (.received buffer))
  | .requestReceived requestId buffer => some (.message (.requestReceived requestId buffer))
  | .closed => some .closed
  | _ => none

section

variable (options : CommonOptions)

/-- The message in a whole body, after the checks of `read_body`. -/
def decodeMessage? (body : Bytes) : Option Message :=
  match body.head?.bind MessageType.ofByte? with
  | some .userData =>
      if body.length > sizeT (options.maxMessageSize + typeSize) then none
      else some (.received (body.drop typeSize))
  | some .request =>
      if body.length < typeSize + requestIdSize ∨
          body.length > sizeT (options.maxMessageSize + typeSize + requestIdSize) then none
      else
        (decodeUint64? body typeSize).map fun requestId =>
          .requestReceived requestId (body.drop (typeSize + requestIdSize))
  | _ => none

/-- The message that a handler of a peer decodes. -/
def Peer.decoded? (peer : Peer) : PeerHandler → Option Message
  | .readBody .success body =>
      if body.length = peer.readBody.length then decodeMessage? options body else none
  | _ => none

end

namespace PeerTurn

def messages (turn : PeerTurn) : List Message := turn.signals.filterMap Signal.message?

variable {options : CommonOptions} {before after turn : PeerTurn}

theorem Settles.messages (settles : Settles before after) :
    after.messages = before.messages := by
  obtain ⟨error, _, reported⟩ := settles.signals
  have errors : (error.toList.map Signal.errorOccurred).filterMap Signal.message? = [] := by
    cases error <;> rfl
  have closed : (closedSignals before.peer after.peer).filterMap Signal.message? = [] := by
    unfold closedSignals
    split <;> rfl
  simp [PeerTurn.messages, reported, errors, closed]

theorem Quiet.messages (quiet : Quiet before after) : after.messages = before.messages := by
  rw [PeerTurn.messages, quiet.signals, PeerTurn.messages]

theorem ensureReady_messages (turn : PeerTurn) : turn.ensureReady.messages = turn.messages := by
  unfold ensureReady
  split
  · rfl
  · simp [messages, enqueue, cancel, Signal.message?]

theorem enqueue_messages (signal : Signal) (turn : PeerTurn) :
    (turn.enqueue signal).messages = turn.messages ++ signal.message?.toList := by
  cases read : signal.message? <;> simp [messages, enqueue, read]

theorem readUserData_messages (turn : PeerTurn) :
    (turn.readUserData options).messages = turn.messages ++
      if turn.peer.readBody.length > sizeT (options.maxMessageSize + typeSize) then []
      else [.received (turn.peer.readBody.drop typeSize)] := by
  unfold readUserData
  simp only [ensureReady_readBody]
  split
  · rw [(handleError_settles (by decide) _).messages, ensureReady_messages, List.append_nil]
  · rw [(readHeader_quiet _).messages, enqueue_messages, ensureReady_messages]
    rfl

theorem readRequestResponse_messages (signal : UInt64 → Bytes → Signal) (turn : PeerTurn) :
    (turn.readRequestResponse options signal).messages = turn.messages ++
      if turn.peer.readBody.length < typeSize + requestIdSize ∨
          turn.peer.readBody.length >
            sizeT (options.maxMessageSize + typeSize + requestIdSize) then []
      else
        ((decodeUint64? turn.peer.readBody typeSize).bind fun requestId =>
          (signal requestId (turn.peer.readBody.drop (typeSize + requestIdSize))).message?).toList := by
  unfold readRequestResponse
  simp only [ensureReady_readBody]
  split
  · rw [(handleError_settles (by decide) _).messages, ensureReady_messages, List.append_nil]
  · split
    case h_1 undecoded =>
      rw [undecoded, Option.bind_none, Option.toList_none, List.append_nil]
      exact ensureReady_messages turn
    case h_2 requestId decoded =>
      rw [(readHeader_quiet _).messages, enqueue_messages, ensureReady_messages, decoded]
      rfl

theorem readMessage_messages (turn : PeerTurn) :
    (turn.readMessage options).messages =
      turn.messages ++ (decodeMessage? options turn.peer.readBody).toList := by
  cases body : turn.peer.readBody with
  | nil => simp [readMessage, body, decodeMessage?, messages]
  | cons type buffer =>
      simp only [readMessage, body, decodeMessage?, List.head?_cons, Option.bind_some]
      cases known : MessageType.ofByte? type with
      | none =>
          rw [(handleError_settles (by decide) turn).messages]
          simp
      | some messageType =>
          cases messageType with
          | heartbeat =>
              rw [(readHeader_quiet turn).messages]
              simp
          | userData =>
              simp only [readUserData_messages, body]
              split <;> rfl
          | request =>
              simp only [readRequestResponse_messages, body]
              split
              · rfl
              · cases decodeUint64? (type :: buffer) typeSize <;> rfl
          | response =>
              simp only [readRequestResponse_messages, body]
              split
              · rfl
              · cases decodeUint64? (type :: buffer) typeSize <;> rfl
          | healthCheck =>
              have settles : Settles turn (turn.readHealthCheck options) :=
                readHealthCheck_settles options turn
              rw [settles.messages]
              simp
          | healthCheckResponse =>
              rw [(readHeader_quiet _).messages, enqueue_messages]
              rfl

/-- Among the signals of a handler at most the message it has read is a message. -/
theorem Shape.messages {handler : PeerHandler} {peer : Peer} (shape : Shape handler peer turn) :
    ∃ message : Option Signal, (∀ sent ∈ message, messageOf handler sent) ∧
      turn.messages = message.toList.filterMap Signal.message? ∧
      turn.signals.filterMap Signal.item? =
        (if !peer.ready && turn.peer.ready then [.ready] else []) ++
          turn.messages.map .message ++
          if peer.isOpen && !turn.peer.isOpen then [.closed] else [] := by
  obtain ⟨message, error, source, _, reported⟩ := shape.signals
  have same : turn.messages = message.toList.filterMap Signal.message? := by
    have errors : (error.toList.map Signal.errorOccurred).filterMap Signal.message? = [] := by
      cases error <;> rfl
    have ready : (readySignals peer turn.peer).filterMap Signal.message? = [] := by
      unfold readySignals
      split <;> rfl
    have closed : (closedSignals peer turn.peer).filterMap Signal.message? = [] := by
      unfold closedSignals
      split <;> rfl
    simp [PeerTurn.messages, reported, errors, ready, closed]
  refine ⟨message, source, same, ?_⟩
  have errors : (error.toList.map Signal.errorOccurred).filterMap Signal.item? = [] := by
    cases error <;> rfl
  have ready : (readySignals peer turn.peer).filterMap Signal.item? =
      if !peer.ready && turn.peer.ready then [.ready] else [] := by
    unfold readySignals
    split <;> rfl
  have closed : (closedSignals peer turn.peer).filterMap Signal.item? =
      if peer.isOpen && !turn.peer.isOpen then [.closed] else [] := by
    unfold closedSignals
    split <;> rfl
  have content : message.toList.filterMap Signal.item? = turn.messages.map .message := by
    rw [same]
    cases message with
    | none => rfl
    | some sent =>
        obtain ⟨body, _, content⟩ := source sent rfl
        cases sent <;> first | rfl | cases content
  rw [reported]
  simp only [List.filterMap_append, errors, ready, closed, content, List.nil_append,
    List.append_assoc]

theorem frameRead_quiet (body : Bytes) (turn : PeerTurn) : Quiet turn (turn.frameRead body) := by
  refine (Quiet.trans (cancel_quiet .readDeadline turn) ?_).trans
    (asyncWait_quiet .heartbeatDeadline _)
  exact Quiet.of_eq rfl rfl rfl rfl rfl rfl

theorem onReadBody_messages (body : Bytes) (turn : PeerTurn) :
    (turn.onReadBody options .success body).messages = turn.messages ++
      if body.length = turn.peer.readBody.length then (decodeMessage? options body).toList
      else [] := by
  by_cases full : body.length = turn.peer.readBody.length
  · rw [onReadBody_frame full, readMessage_messages, (frameRead_quiet body turn).messages,
      if_pos full]
    rfl
  · have kept : (turn.cancel .readDeadline).peer.readBody = turn.peer.readBody := rfl
    simp only [onReadBody, kept, full, ne_eq, not_true_eq_false, not_false_eq_true, if_false,
      if_true]
    rw [(handleError_settles (by decide) _).messages, (cancel_quiet _ _).messages,
      List.append_nil]

/-- A handler reports exactly the message that it decodes. -/
theorem run_messages (options : CommonOptions) (handler : PeerHandler) (peer : Peer) :
    (run options handler { peer }).messages = (peer.decoded? options handler).toList := by
  by_cases read : ∃ body, handler = .readBody .success body
  · obtain ⟨body, rfl⟩ := read
    have same := @onReadBody_messages options body { peer }
    simp only [run, same, Peer.decoded?]
    split <;> rfl
  · obtain ⟨message, source, same, _⟩ := (run_shape options handler peer).messages
    have undecoded : peer.decoded? options handler = none := by
      unfold Peer.decoded?
      split
      · exact absurd ⟨_, rfl⟩ read
      · rfl
    cases message with
    | none => simpa [undecoded] using same
    | some sent =>
        obtain ⟨body, own, _⟩ := source sent rfl
        exact absurd ⟨body, own⟩ read

/-- The items among the signals of a handler, in their order. -/
theorem run_items (options : CommonOptions) (handler : PeerHandler) (peer : Peer) :
    (run options handler { peer }).signals.filterMap Signal.item? =
      (if !peer.ready && (run options handler { peer }).peer.ready then [.ready] else []) ++
        (peer.decoded? options handler).toList.map .message ++
        if peer.isOpen && !(run options handler { peer }).peer.isOpen then [.closed] else [] := by
  obtain ⟨_, _, _, items⟩ := (run_shape options handler peer).messages
  rw [items, run_messages]

/-- A decoded message raises `ready`. -/
theorem ready_of_decoded {handler : PeerHandler} {peer : Peer} {message : Message}
    (decoded : peer.decoded? options handler = some message) :
    (run options handler { peer }).peer.ready = true := by
  rw [(run_shape options handler peer).ready, Bool.or_eq_true]
  right
  unfold Peer.decoded? at decoded
  split at decoded
  case h_2 => cases decoded
  case h_1 body =>
    split at decoded
    case isFalse => cases decoded
    case isTrue full =>
      unfold decodeMessage? at decoded
      split at decoded
      case h_1 user => simp [raises, full, user]
      case h_2 request => simp [raises, full, request]
      case h_3 => cases decoded

end PeerTurn

end UnixDomainStream
