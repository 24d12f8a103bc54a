import Mathlib.Data.List.TakeDrop
import UnixDomainStream.Grammar
import UnixDomainStream.Peer

/-!
# The receive loop

`read_header` and `read_body` of one peer run on a byte stream: every
`async_read` is completed with the next bytes of the stream, with `eof` where an
ended stream is too short, and stays outstanding where an open one is.
-/

namespace UnixDomainStream.Reader

open Protocol Grammar UnixDomainStream.Library

/-- How the outstanding read of `size` bytes completes on the given stream. -/
def completion? (ended : Bool) (input : Bytes) (size : Nat) : Option PeerCompletion :=
  if size ≤ input.length then some (.read .success (input.take size))
  else if ended then some (.read .eof input)
  else none

/-- Complete the outstanding read and run its handler. -/
def receiveStep? (options : CommonOptions) (ended : Bool) (turn : PeerTurn) (input : Bytes) :
    Option (PeerTurn × Bytes) := do
  let operation ← turn.peer.reading
  let completion ← completion? ended input operation.size
  let (peer, handler) ← turn.peer.complete? completion
  some ({ turn with peer := peer }.run options handler, input.drop operation.size)

def receive (options : CommonOptions) (ended : Bool) : Nat → PeerTurn → Bytes → PeerTurn
  | 0, turn, _ => turn
  | fuel + 1, turn, input =>
      match receiveStep? options ended turn input with
      | none => turn
      | some (next, rest) => receive options ended fuel next rest

/-- A peer on an open socket right after its start handler. -/
def started (options : CommonOptions) : PeerTurn :=
  PeerTurn.run options .start { peer := {} }

/-- The receive loop on a whole stream.  Every read but the last takes at least
one byte, so the fuel never runs out. -/
def receiveAll (options : CommonOptions) (ended : Bool) (input : Bytes) : PeerTurn :=
  receive options ended (input.length + 2) (started options) input

/-! ## Between two frames -/

/-- The peer waits for the next header. -/
structure Waiting (turn : PeerTurn) : Prop where
  isOpen : turn.peer.isOpen = true
  reading : turn.peer.reading = some .header
  writeQueue : turn.peer.writeQueue = []
  fault : turn.fault = false

theorem waiting_started (options : CommonOptions) : Waiting (started options) :=
  ⟨rfl, rfl, rfl, rfl⟩

/-- The peer waits for a body of the declared size. -/
structure AwaitingBody (size : Nat) (turn : PeerTurn) : Prop where
  isOpen : turn.peer.isOpen = true
  reading : turn.peer.reading = some (.body size)
  readBody : turn.peer.readBody.length = size
  writeQueue : turn.peer.writeQueue = []
  fault : turn.fault = false

/-- `M + 9` where it does not wrap. -/
def bodyLimit (options : CommonOptions) : Nat :=
  options.maxMessageSize + typeSize + requestIdSize

def NoWrap (options : CommonOptions) : Prop := bodyLimit options < 2 ^ 64

instance (options : CommonOptions) : Decidable (NoWrap options) :=
  inferInstanceAs (Decidable (bodyLimit options < 2 ^ 64))

theorem sizeT_bodyLimit {options : CommonOptions} (noWrap : NoWrap options) :
    sizeT (options.maxMessageSize + typeSize + requestIdSize) = bodyLimit options :=
  Nat.mod_eq_of_lt noWrap

theorem sizeT_userLimit {options : CommonOptions} (noWrap : NoWrap options) :
    sizeT (options.maxMessageSize + typeSize) = options.maxMessageSize + typeSize := by
  apply Nat.mod_eq_of_lt
  simp only [NoWrap, bodyLimit, requestIdSize] at noWrap
  omega

theorem receive_of_step {options : CommonOptions} {ended : Bool} {turn next : PeerTurn}
    {input rest : Bytes} (fuel : Nat)
    (step : receiveStep? options ended turn input = some (next, rest)) :
    receive options ended (fuel + 1) turn input = receive options ended fuel next rest := by
  simp only [receive, step]

theorem receive_of_none {options : CommonOptions} {ended : Bool} {turn : PeerTurn} {input : Bytes}
    (fuel : Nat) (stuck : receiveStep? options ended turn input = none) :
    receive options ended fuel turn input = turn := by
  cases fuel with
  | zero => rfl
  | succ fuel => simp only [receive, stuck]

/-- The turn with its outstanding read completed. -/
def completed (turn : PeerTurn) : PeerTurn :=
  { turn with peer := { turn.peer with reading := none } }

theorem receiveStep?_full (options : CommonOptions) (ended : Bool) {turn : PeerTurn}
    {operation : PendingRead} (input : Bytes) (reading : turn.peer.reading = some operation)
    (enough : operation.size ≤ input.length) :
    receiveStep? options ended turn input =
      some ((completed turn).run options
          (PeerTurn.readHandler operation .success (input.take operation.size)),
        input.drop operation.size) := by
  simp [receiveStep?, reading, completion?, enough, Peer.complete?, completed]

theorem receiveStep?_short (options : CommonOptions) {turn : PeerTurn}
    {operation : PendingRead} (input : Bytes) (reading : turn.peer.reading = some operation)
    (short : input.length < operation.size) :
    receiveStep? options true turn input =
      some ((completed turn).run options (PeerTurn.readHandler operation .eof input), []) := by
  have notEnough : ¬ operation.size ≤ input.length := by omega
  simp [receiveStep?, reading, completion?, notEnough, Peer.complete?, completed, short]
  omega

theorem receiveStep?_waits (options : CommonOptions) {turn : PeerTurn}
    {operation : PendingRead} (input : Bytes) (reading : turn.peer.reading = some operation)
    (short : input.length < operation.size) :
    receiveStep? options false turn input = none := by
  have notEnough : ¬ operation.size ≤ input.length := by omega
  simp [receiveStep?, reading, completion?, notEnough]

theorem receiveStep?_stopped {options : CommonOptions} {ended : Bool} {turn : PeerTurn}
    {input : Bytes} (stopped : turn.peer.reading = none) :
    receiveStep? options ended turn input = none := by
  simp [receiveStep?, stopped]

/-- A complete header of admissible declared size starts the read of the body. -/
theorem onReadHeader_admissible {options : CommonOptions} (noWrap : NoWrap options)
    {turn : PeerTurn} (waiting : Waiting turn) {header : Bytes} (complete : header.length = headerSize)
    (positive : typeSize ≤ (decodeUint32 header).toNat)
    (admissible : (decodeUint32 header).toNat ≤ bodyLimit options) :
    let next := (completed turn).run options (.readHeader .success header)
    AwaitingBody (decodeUint32 header).toNat next ∧ next.signals = turn.signals ∧
      next.peer.ready = turn.peer.ready := by
  have fits : ¬ ((decodeUint32 header).toNat < typeSize ∨
      (decodeUint32 header).toNat > bodyLimit options) := by omega
  simp only [PeerTurn.run, PeerTurn.onReadHeader, ne_eq, not_true_eq_false, if_false, complete,
    sizeT_bodyLimit noWrap, fits]
  refine ⟨⟨?_, ?_, ?_, ?_, ?_⟩, ?_, ?_⟩
  all_goals
    simp [PeerTurn.readBody, PeerTurn.asyncRead, PeerTurn.startReadDeadline, PeerTurn.asyncWait, PeerTurn.cancel,
      completed, waiting.isOpen, waiting.writeQueue, waiting.fault, List.takeD_length]

/-! ## A complete body -/

/-- `ensure_ready()` is called for the frames that carry a payload. -/
def raisesReady : Content → Bool
  | .userData _ => true
  | .request _ _ => true
  | .response _ _ => true
  | _ => false

def message : Content → List Signal
  | .userData payload => [.received payload]
  | .request requestId payload => [.requestReceived requestId payload]
  | .response requestId payload => [.responseReceived requestId payload]
  | .healthCheckResponse => [.healthCheckResponseReceived]
  | _ => []

def readySignal (ready : Bool) : List Signal := if ready then [] else [.ready]

/-- The signals of one frame, `ready` before the first payload. -/
def signals (ready : Bool) (content : Content) : List Signal :=
  (if raisesReady content then readySignal ready else []) ++ message content

/-- The turn in which the complete body is dispatched. -/
def dispatched (body : Bytes) (turn : PeerTurn) : PeerTurn :=
  ({ (completed turn).cancel .readDeadline with
      peer := { ((completed turn).cancel .readDeadline).peer with readBody := body } } :
    PeerTurn).refreshHeartbeatDeadline

theorem run_readBody {options : CommonOptions} {turn : PeerTurn} {body : Bytes}
    (awaiting : AwaitingBody body.length turn) :
    (completed turn).run options (.readBody .success body) =
      (dispatched body turn).readMessage options := by
  have size : body.length =
      ((completed turn).cancel .readDeadline).peer.readBody.length :=
    awaiting.readBody.symm
  simp only [PeerTurn.run, PeerTurn.onReadBody, ne_eq, not_true_eq_false, if_false, size, dispatched]

/-- Reading stops or goes on from a body in an open peer with nothing to write. -/
structure Dispatching (body : Bytes) (turn : PeerTurn) : Prop where
  isOpen : turn.peer.isOpen = true
  reading : turn.peer.reading = none
  readBody : turn.peer.readBody = body
  writeQueue : turn.peer.writeQueue = []
  fault : turn.fault = false

theorem dispatching {body : Bytes} {turn : PeerTurn} (awaiting : AwaitingBody body.length turn) :
    Dispatching body (dispatched body turn) :=
  ⟨awaiting.isOpen, rfl, rfl, awaiting.writeQueue, awaiting.fault⟩

theorem dispatched_signals (body : Bytes) (turn : PeerTurn) :
    (dispatched body turn).signals = turn.signals := rfl

theorem dispatched_ready (body : Bytes) (turn : PeerTurn) :
    (dispatched body turn).peer.ready = turn.peer.ready := rfl

theorem ensureReady_signals (turn : PeerTurn) :
    turn.ensureReady.signals = turn.signals ++ readySignal turn.peer.ready := by
  cases ready : turn.peer.ready <;> simp [PeerTurn.ensureReady, ready, readySignal, PeerTurn.enqueue, PeerTurn.cancel]

theorem ensureReady_ready (turn : PeerTurn) : turn.ensureReady.peer.ready = true := by
  cases ready : turn.peer.ready <;> simp [PeerTurn.ensureReady, ready, PeerTurn.enqueue, PeerTurn.cancel]

theorem Dispatching.ensureReady {body : Bytes} {turn : PeerTurn} (state : Dispatching body turn) :
    Dispatching body turn.ensureReady := by
  cases ready : turn.peer.ready with
  | true => simpa [PeerTurn.ensureReady, ready] using state
  | false =>
      simp only [PeerTurn.ensureReady, ready]
      exact ⟨state.isOpen, state.reading, state.readBody, state.writeQueue, state.fault⟩

theorem Dispatching.enqueue {body : Bytes} {turn : PeerTurn} (state : Dispatching body turn)
    (signal : Signal) : Dispatching body (turn.enqueue signal) :=
  ⟨state.isOpen, state.reading, state.readBody, state.writeQueue, state.fault⟩

/-- Going on with the next header. -/
theorem Dispatching.readHeader {body : Bytes} {turn : PeerTurn} (state : Dispatching body turn) :
    Waiting turn.readHeader ∧ turn.readHeader.signals = turn.signals ∧
      turn.readHeader.peer.ready = turn.peer.ready := by
  refine ⟨⟨?_, ?_, ?_, ?_⟩, ?_, ?_⟩ <;>
    simp [PeerTurn.readHeader, PeerTurn.startReadDeadline, PeerTurn.asyncRead, PeerTurn.asyncWait, PeerTurn.cancel,
      state.isOpen, state.writeQueue, state.fault]

/-- A complete request or response body is decoded in range. -/
theorem readRequestResponse_eq {options : CommonOptions} (noWrap : NoWrap options) {turn : PeerTurn}
    {type : UInt8} {requestId : UInt64} {payload : Bytes}
    (state : Dispatching (type :: (BigEndian.toBytes 8 requestId.toNat ++ payload)) turn)
    (admissible : (type :: (BigEndian.toBytes 8 requestId.toNat ++ payload)).length ≤
      bodyLimit options)
    (signal : UInt64 → Bytes → Signal) :
    turn.readRequestResponse options signal =
      (turn.ensureReady.enqueue (signal requestId payload)).readHeader := by
  have inRange :
      ¬ ((type :: (BigEndian.toBytes 8 requestId.toNat ++ payload)).length <
          typeSize + requestIdSize ∨
        (type :: (BigEndian.toBytes 8 requestId.toNat ++ payload)).length >
          bodyLimit options) := by
    simp only [List.length_cons, List.length_append, BigEndian.toBytes_length, typeSize,
      requestIdSize] at admissible ⊢
    omega
  have rest :
      (type :: (BigEndian.toBytes 8 requestId.toNat ++ payload)).drop (typeSize + requestIdSize) =
        payload := by
    simp [typeSize, requestIdSize]
  simp only [PeerTurn.readRequestResponse, state.ensureReady.readBody, sizeT_bodyLimit noWrap,
    inRange, if_false, decodeUint64?_eq, rest]

theorem readUserData_eq {options : CommonOptions} (noWrap : NoWrap options) {turn : PeerTurn}
    {type : UInt8} {payload : Bytes} (state : Dispatching (type :: payload) turn)
    (fits : payload.length ≤ options.maxMessageSize) :
    turn.readUserData options = (turn.ensureReady.enqueue (.received payload)).readHeader := by
  have inRange : ¬ (type :: payload).length > options.maxMessageSize + typeSize := by
    simp only [List.length_cons, typeSize]
    omega
  have rest : (type :: payload).drop typeSize = payload := rfl
  simp only [PeerTurn.readUserData, state.ensureReady.readBody, sizeT_userLimit noWrap, inRange,
    if_false, rest]

/-- A payload frame raises `ready`, reports itself and goes on. -/
theorem ensureReady_enqueue_readHeader {body : Bytes} {turn : PeerTurn} (state : Dispatching body turn)
    (signal : Signal) :
    let next := (turn.ensureReady.enqueue signal).readHeader
    Waiting next ∧ next.signals = turn.signals ++ (readySignal turn.peer.ready ++ [signal]) ∧
      next.peer.ready = true := by
  obtain ⟨waiting, sent, ready⟩ := (state.ensureReady.enqueue signal).readHeader
  refine ⟨waiting, ?_, ?_⟩
  · rw [sent, PeerTurn.enqueue, ensureReady_signals, List.append_assoc]
  · rw [ready]
    exact ensureReady_ready turn

/-- A well-formed body other than a health check is reported, and the reader
waits for the next header. -/
theorem readMessage_frame {options : CommonOptions} (noWrap : NoWrap options) {turn : PeerTurn}
    {content : Content} {body : Bytes} (state : Dispatching body turn)
    (frame : Frame options.maxMessageSize content body) (other : content ≠ .healthCheck) :
    let next := turn.readMessage options
    Waiting next ∧ next.signals = turn.signals ++ signals turn.peer.ready content ∧
      next.peer.ready = (turn.peer.ready || raisesReady content) := by
  obtain ⟨shape, admissible, _⟩ := frame
  cases shape with
  | heartbeat padding =>
      obtain ⟨waiting, sent, ready⟩ := state.readHeader
      simp only [PeerTurn.readMessage, state.readBody, MessageType.ofByte?, if_true]
      exact ⟨waiting, by simp [sent, signals, raisesReady, message], by simp [ready, raisesReady]⟩
  | @userData payload fits =>
      have next := ensureReady_enqueue_readHeader state (.received payload)
      simpa [PeerTurn.readMessage, state.readBody, MessageType.ofByte?,
        readUserData_eq noWrap state fits, signals, raisesReady, message] using next
  | healthCheck padding => exact absurd rfl other
  | healthCheckResponse padding =>
      obtain ⟨waiting, sent, ready⟩ := (state.enqueue .healthCheckResponseReceived).readHeader
      have dispatch : turn.readMessage options =
          (turn.enqueue .healthCheckResponseReceived).readHeader := by
        simp [PeerTurn.readMessage, state.readBody, MessageType.ofByte?]
      refine ⟨dispatch ▸ waiting, ?_, ?_⟩
      · simp only [dispatch, sent]
        rfl
      · simp only [dispatch, ready, raisesReady, Bool.or_false]
        rfl
  | request requestId payload =>
      have next := ensureReady_enqueue_readHeader state (.requestReceived requestId payload)
      simpa [PeerTurn.readMessage, state.readBody, MessageType.ofByte?,
        readRequestResponse_eq noWrap state admissible, signals, raisesReady, message] using next
  | response requestId payload =>
      have next := ensureReady_enqueue_readHeader state (.responseReceived requestId payload)
      simpa [PeerTurn.readMessage, state.readBody, MessageType.ofByte?,
        readRequestResponse_eq noWrap state admissible, signals, raisesReady, message] using next

/-- The header of a complete frame is taken, and its body is dispatched. -/
theorem receive_body {options : CommonOptions} (noWrap : NoWrap options) (ended : Bool)
    {turn : PeerTurn} (waiting : Waiting turn) {body : Bytes} (positive : typeSize ≤ body.length)
    (admissible : body.length ≤ bodyLimit options) (encodable : body.length < 2 ^ 32)
    (rest : Bytes) (fuel : Nat) :
    ∃ state, Dispatching body state ∧ state.signals = turn.signals ∧
      state.peer.ready = turn.peer.ready ∧
      receive options ended (fuel + 2) turn (framed body ++ rest) =
        receive options ended fuel (state.readMessage options) rest := by
  have headerTaken : (framed body ++ rest).drop headerSize = body ++ rest := by
    rw [framed, List.append_assoc]
    exact List.drop_left' (BigEndian.toBytes_length 4 body.length)
  have decoded := decode_framed encodable rest
  have enough : headerSize ≤ (framed body ++ rest).length := by
    rw [List.length_append, framed_length]
    omega
  have size : ((framed body ++ rest).take headerSize).length = headerSize := by
    rw [List.length_take]
    omega
  obtain ⟨awaiting, sent, ready⟩ := onReadHeader_admissible noWrap waiting size
    (by rw [decoded]; exact positive) (by rw [decoded]; exact admissible)
  rw [decoded] at awaiting
  have first := receiveStep?_full options ended (framed body ++ rest) waiting.reading enough
  have second := receiveStep?_full options ended (body ++ rest) awaiting.reading (by simp [PendingRead.size])
  simp only [PendingRead.size, List.take_left, List.drop_left, PeerTurn.readHandler] at first second
  rw [headerTaken] at first
  rw [run_readBody awaiting] at second
  refine ⟨_, dispatching awaiting, ?_, ?_, ?_⟩
  · rw [dispatched_signals, sent]
  · rw [dispatched_ready, ready]
  · rw [receive_of_step (fuel + 1) first, receive_of_step fuel second]

/-- One whole frame is taken in two reads. -/
theorem receive_frame {options : CommonOptions} (noWrap : NoWrap options) (ended : Bool)
    {turn : PeerTurn} (waiting : Waiting turn) {content : Content} {body : Bytes}
    (frame : Frame options.maxMessageSize content body) (other : content ≠ .healthCheck)
    (rest : Bytes) (fuel : Nat) :
    ∃ next, receive options ended (fuel + 2) turn (framed body ++ rest) =
        receive options ended fuel next rest ∧ Waiting next ∧
      next.signals = turn.signals ++ signals turn.peer.ready content ∧
      next.peer.ready = (turn.peer.ready || raisesReady content) := by
  obtain ⟨state, dispatching, sent, ready, run⟩ := receive_body noWrap ended waiting
    frame.shape.positive frame.admissible frame.encodable rest fuel
  obtain ⟨after, sentAfter, readyAfter⟩ := readMessage_frame noWrap dispatching frame other
  refine ⟨_, run, after, ?_, ?_⟩
  · rw [sentAfter, sent, ready]
  · rw [readyAfter, ready]

end UnixDomainStream.Reader
