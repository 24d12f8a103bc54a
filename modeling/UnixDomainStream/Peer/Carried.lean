import UnixDomainStream.Peer.Pieces
import UnixDomainStream.RoundTrip

/-!
# What the bodies carry

A body of user data, of a request or of a response that passes the checks of `read_body`
is reported as one signal, with what it carries; no other signal carries anything.
-/

namespace UnixDomainStream

open Protocol

/-- The signals that carry what the other end has sent. -/
def Signal.carries : Signal → Bool
  | .received _ => true
  | .requestReceived _ _ => true
  | .responseReceived _ _ => true
  | _ => false

section

variable (options : CommonOptions)

/-- The request or the response in a whole body, after the checks of `read_body`. -/
def identified? (signal : UInt64 → Bytes → Signal) (body : Bytes) : Option Signal :=
  if body.length < typeSize + requestIdSize ∨
      body.length > sizeT (options.maxMessageSize + typeSize + requestIdSize) then none
  else
    (decodeUint64? body typeSize).map fun requestId =>
      signal requestId (body.drop (typeSize + requestIdSize))

/-- The signal for a whole body, after the checks of `read_body`. -/
def carried? (body : Bytes) : Option Signal :=
  match body.head?.bind MessageType.ofByte? with
  | some .userData =>
      if body.length > sizeT (options.maxMessageSize + typeSize) then none
      else some (.received (body.drop typeSize))
  | some .request => identified? options .requestReceived body
  | some .response => identified? options .responseReceived body
  | _ => none

end

namespace PeerTurn

/-- The signals of a handler that carry something. -/
def carrying (turn : PeerTurn) : List Signal := turn.signals.filter Signal.carries

variable {options : CommonOptions} {before after turn : PeerTurn}

theorem Settles.carrying (settles : Settles before after) : after.carrying = before.carrying := by
  obtain ⟨error, _, reported⟩ := settles.signals
  have errors : (error.toList.map Signal.errorOccurred).filter Signal.carries = [] := by
    cases error <;> rfl
  have closed : (closedSignals before.peer after.peer).filter Signal.carries = [] := by
    unfold closedSignals
    split <;> rfl
  simp [PeerTurn.carrying, reported, errors, closed]

theorem Quiet.carrying (quiet : Quiet before after) : after.carrying = before.carrying := by
  rw [PeerTurn.carrying, quiet.signals, PeerTurn.carrying]

theorem ensureReady_carrying (turn : PeerTurn) : turn.ensureReady.carrying = turn.carrying := by
  unfold ensureReady
  split
  · rfl
  · simp [carrying, enqueue, cancel, Signal.carries]

theorem enqueue_carrying {signal : Signal} (carries : signal.carries = true) (turn : PeerTurn) :
    (turn.enqueue signal).carrying = turn.carrying ++ [signal] := by
  simp [carrying, enqueue, carries]

theorem readUserData_carrying (turn : PeerTurn) :
    (turn.readUserData options).carrying = turn.carrying ++
      if turn.peer.readBody.length > sizeT (options.maxMessageSize + typeSize) then []
      else [.received (turn.peer.readBody.drop typeSize)] := by
  unfold readUserData
  simp only [ensureReady_readBody]
  split
  · rw [(handleError_settles (by decide) _).carrying, ensureReady_carrying, List.append_nil]
  · rw [(readHeader_quiet _).carrying, enqueue_carrying rfl, ensureReady_carrying]

theorem readRequestResponse_carrying {signal : UInt64 → Bytes → Signal}
    (carries : ∀ requestId buffer, (signal requestId buffer).carries = true) (turn : PeerTurn) :
    (turn.readRequestResponse options signal).carrying =
      turn.carrying ++ (identified? options signal turn.peer.readBody).toList := by
  unfold readRequestResponse identified?
  simp only [ensureReady_readBody]
  split
  · rw [(handleError_settles (by decide) _).carrying, ensureReady_carrying, Option.toList_none,
      List.append_nil]
  · split
    case h_1 undecoded =>
      rw [undecoded, Option.map_none, Option.toList_none, List.append_nil]
      exact ensureReady_carrying turn
    case h_2 requestId decoded =>
      rw [(readHeader_quiet _).carrying, enqueue_carrying (carries _ _), ensureReady_carrying,
        decoded]
      rfl

theorem readMessage_carrying (turn : PeerTurn) :
    (turn.readMessage options).carrying =
      turn.carrying ++ (carried? options turn.peer.readBody).toList := by
  cases body : turn.peer.readBody with
  | nil => simp [readMessage, body, carried?, carrying]
  | cons type buffer =>
      simp only [readMessage, body, carried?, List.head?_cons, Option.bind_some]
      cases known : MessageType.ofByte? type with
      | none =>
          rw [(handleError_settles (by decide) turn).carrying]
          simp
      | some messageType =>
          cases messageType with
          | heartbeat =>
              rw [(readHeader_quiet turn).carrying]
              simp
          | userData =>
              simp only [readUserData_carrying, body]
              split <;> rfl
          | request => rw [readRequestResponse_carrying fun _ _ => by rfl, body]
          | response => rw [readRequestResponse_carrying fun _ _ => by rfl, body]
          | healthCheck =>
              have settles : Settles turn (turn.readHealthCheck options) :=
                readHealthCheck_settles options turn
              rw [settles.carrying]
              simp
          | healthCheckResponse =>
              rw [(readHeader_quiet _).carrying]
              simp [carrying, enqueue, Signal.carries]

/-- A whole body is reported with what it carries. -/
theorem run_readBody_carrying {peer : Peer} {body : Bytes}
    (whole : body.length = peer.readBody.length) :
    (run options (.readBody .success body) { peer }).carrying =
      (carried? options body).toList := by
  have quiet : Quiet { peer } (({ peer } : PeerTurn).frameRead body) := by
    refine (Quiet.trans (cancel_quiet .readDeadline _) ?_).trans
      (asyncWait_quiet .heartbeatDeadline _)
    exact Quiet.of_eq rfl rfl rfl rfl rfl rfl
  simp only [run]
  rw [onReadBody_frame whole, readMessage_carrying, quiet.carrying]
  rfl

/-- Nothing else is reported that carries anything. -/
theorem run_carrying_nil {handler : PeerHandler} {peer : Peer}
    (other : ∀ body, handler = .readBody .success body → body.length ≠ peer.readBody.length) :
    (run options handler { peer }).carrying = [] := by
  by_cases read : ∃ body, handler = .readBody .success body
  · obtain ⟨body, rfl⟩ := read
    have short : body.length ≠ (({ peer } : PeerTurn).cancel .readDeadline).peer.readBody.length :=
      other body rfl
    simp only [run, onReadBody, ne_eq, not_true_eq_false, if_false, short, not_false_eq_true,
      if_true]
    rw [(handleError_settles (by decide) _).carrying, (cancel_quiet _ _).carrying]
    rfl
  · obtain ⟨message, error, source, _, reported⟩ := (run_shape options handler peer).signals
    have none : message = none := by
      cases message with
      | none => rfl
      | some sent =>
          obtain ⟨body, own, _⟩ := source sent rfl
          exact absurd ⟨body, own⟩ read
    have ready : (readySignals peer (run options handler { peer }).peer).filter
        Signal.carries = [] := by
      unfold readySignals
      split <;> rfl
    have errors : (error.toList.map Signal.errorOccurred).filter Signal.carries = [] := by
      cases error <;> rfl
    have closed : (closedSignals peer (run options handler { peer }).peer).filter
        Signal.carries = [] := by
      unfold closedSignals
      split <;> rfl
    simp [carrying, reported, none, ready, errors, closed]

end PeerTurn

/-! ## The frames of the builders -/

open Library Grammar Reader RoundTrip

/-- A request id and a payload behind the type are found again. -/
theorem identified?_of_body {options : CommonOptions} (noWrap : NoWrap options)
    (signal : UInt64 → Bytes → Signal) {type : UInt8} {requestId : UInt64} {payload : Bytes}
    (admissible : (type :: (BigEndian.toBytes 8 requestId.toNat ++ payload)).length ≤
      bodyLimit options) :
    identified? options signal (type :: (BigEndian.toBytes 8 requestId.toNat ++ payload)) =
      some (signal requestId payload) := by
  have inRange :
      ¬ ((type :: (BigEndian.toBytes 8 requestId.toNat ++ payload)).length <
          typeSize + requestIdSize ∨
        (type :: (BigEndian.toBytes 8 requestId.toNat ++ payload)).length >
          bodyLimit options) := by
    simp only [List.length_cons, List.length_append, BigEndian.toBytes_length, typeSize,
      requestIdSize] at admissible ⊢
    omega
  have rest :
      (type :: (BigEndian.toBytes 8 requestId.toNat ++ payload)).drop (typeSize + requestIdSize) =
        payload := by
    simp [typeSize, requestIdSize]
  simp only [identified?, sizeT_bodyLimit noWrap, inRange, if_false, decodeUint64?_eq,
    Option.map_some, rest]

/-- A well-formed body carries what was put into it. -/
theorem carried?_of_body {options : CommonOptions} (noWrap : NoWrap options) {content : Content}
    {body : Bytes} (shape : Body options.maxMessageSize content body)
    (admissible : body.length ≤ bodyLimit options) :
    (carried? options body).toList = (message content).filter Signal.carries := by
  cases shape with
  | heartbeat padding => rfl
  | @userData payload fits =>
      have inRange : ¬ (1 :: payload).length > options.maxMessageSize + typeSize := by
        simp only [List.length_cons, typeSize]
        omega
      have rest : (1 :: payload : Bytes).drop typeSize = payload := rfl
      have type : (1 :: payload : Bytes).head?.bind MessageType.ofByte? = some .userData := rfl
      simp only [carried?, type, sizeT_userLimit noWrap, inRange, if_false, rest]
      rfl
  | healthCheck padding => rfl
  | healthCheckResponse padding => rfl
  | request requestId payload =>
      have type : (4 :: (BigEndian.toBytes 8 requestId.toNat ++ payload) : Bytes).head?.bind
          MessageType.ofByte? = some .request := rfl
      simp only [carried?, type, identified?_of_body noWrap .requestReceived admissible]
      rfl
  | response requestId payload =>
      have type : (5 :: (BigEndian.toBytes 8 requestId.toNat ++ payload) : Bytes).head?.bind
          MessageType.ofByte? = some .response := rfl
      simp only [carried?, type, identified?_of_body noWrap .responseReceived admissible]
      rfl

/-- The frame of a message that fits carries the message. -/
theorem carried?_of_frame {options : CommonOptions} (noWrap : NoWrap options)
    {message : RoundTrip.Message} (fits : message.Fits options.maxMessageSize) {body : Bytes}
    (same : message.frame = framed body) : (carried? options body).toList = message.event := by
  obtain ⟨body', same', frame⟩ := frame_wellFormed fits
  have size := congrArg List.length (same.symm.trans same')
  rw [framed_length, framed_length] at size
  have equal : body = body' := by
    have bytes := same.symm.trans same'
    rw [framed, framed] at bytes
    exact (List.append_inj' bytes (Nat.add_left_cancel size)).2
  rw [equal, carried?_of_body noWrap frame.shape frame.admissible]
  cases message <;> rfl

end UnixDomainStream
