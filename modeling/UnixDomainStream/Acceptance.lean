import UnixDomainStream.Reader

/-!
# What the reader accepts

Any byte string splits into leading well-formed frames and a remainder, and the
remainder alone decides how the receive loop stops on the ended stream.
-/

namespace UnixDomainStream.Acceptance

open Protocol Grammar Reader UnixDomainStream.Library

/-- `input` begins with well-formed frames other than health checks, with the
given contents; `rest` follows them. -/
inductive Leads (limit : Nat) : Bytes → List Content → Bytes → Prop where
  | nil (rest : Bytes) : Leads limit rest [] rest
  | cons {content : Content} {body tail rest : Bytes} {contents : List Content}
      (frame : Frame limit content body) (other : content ≠ .healthCheck)
      (leads : Leads limit tail contents rest) :
      Leads limit (framed body ++ tail) (content :: contents) rest

/-- The signals of a sequence of frames, one report a frame. -/
def reports : Bool → List Content → List Signal
  | _, [] => []
  | ready, content :: contents =>
      signals ready content ++ reports (ready || raisesReady content) contents

/-- How reading stops: a clean close, an error with the close that follows it, or
a health check that is answered. -/
inductive Ending where
  | clean
  | error (errorCode : ErrorCode)
  | answered
  deriving DecidableEq, Repr

/-- The length a complete header declares. -/
def declaredSize (rest : Bytes) : Nat := BigEndian.ofBytes (rest.take headerSize)

/-- A body that a header may announce. -/
structure Announced (options : CommonOptions) (body : Bytes) : Prop where
  positive : typeSize ≤ body.length
  admissible : body.length ≤ bodyLimit options
  encodable : body.length < 2 ^ 32

/-- How the remaining bytes decide the ending; `ready` tells whether a payload
frame came before. -/
inductive Ends (options : CommonOptions) (ready : Bool) : Bytes → Ending → Prop where
  | nothing : Ends options ready [] .clean
  | partialHeader {rest : Bytes} (some : rest ≠ []) (short : rest.length < headerSize) :
      Ends options ready rest (.error .eof)
  | emptyBody {rest : Bytes} (header : headerSize ≤ rest.length) (zero : declaredSize rest = 0) :
      Ends options ready rest (.error .messageSize)
  | largeBody {rest : Bytes} (header : headerSize ≤ rest.length)
      (large : bodyLimit options < declaredSize rest) :
      Ends options ready rest (.error .messageSize)
  | partialBody {rest : Bytes} (header : headerSize ≤ rest.length)
      (positive : typeSize ≤ declaredSize rest) (admissible : declaredSize rest ≤ bodyLimit options)
      (short : rest.length < headerSize + declaredSize rest) :
      Ends options ready rest (.error .eof)
  | largeUserData {payload tail : Bytes} (announced : Announced options (1 :: payload))
      (large : options.maxMessageSize < payload.length) :
      Ends options ready (framed (1 :: payload) ++ tail) (.error .messageSize)
  | shortRequest {payload tail : Bytes} (announced : Announced options (4 :: payload))
      (short : (4 :: payload).length < typeSize + requestIdSize) :
      Ends options ready (framed (4 :: payload) ++ tail) (.error .messageSize)
  | shortResponse {payload tail : Bytes} (announced : Announced options (5 :: payload))
      (short : (5 :: payload).length < typeSize + requestIdSize) :
      Ends options ready (framed (5 :: payload) ++ tail) (.error .messageSize)
  | unknownType {type : UInt8} {padding tail : Bytes}
      (announced : Announced options (type :: padding)) (large : 5 < type) :
      Ends options ready (framed (type :: padding) ++ tail) (.error .invalidArgument)
  | lateHealthCheck {padding tail : Bytes} (announced : Announced options (2 :: padding))
      (late : ready = true) :
      Ends options ready (framed (2 :: padding) ++ tail) (.error .operationNotSupported)
  | healthCheck {padding tail : Bytes} (announced : Announced options (2 :: padding))
      (first : ready = false) (room : 0 < options.maxSendQueueSize) :
      Ends options ready (framed (2 :: padding) ++ tail) .answered
  | noQueue {padding tail : Bytes} (announced : Announced options (2 :: padding))
      (first : ready = false) (full : options.maxSendQueueSize = 0) :
      Ends options ready (framed (2 :: padding) ++ tail) (.error .noBufferSpace)

/-- What the peer has done when it stopped reading in the given way, after the
signals `before`. -/
def StoppedBy (before : List Signal) (final : PeerTurn) : Ending → Prop
  | .clean => final.signals = before ++ [.closed] ∧ final.peer.writeQueue = []
  | .error errorCode =>
      (final.signals = before ++ [.errorOccurred errorCode, .closed] ∨
        final.signals = before ++ [.ready, .errorOccurred errorCode, .closed]) ∧
      final.peer.writeQueue = []
  | .answered =>
      final.signals = before ∧ final.peer.writeQueue = [makeHealthCheckResponseFrame] ∧
      final.peer.closeAfterWrite = true

/-- A peer stops in one way only. -/
theorem StoppedBy.unique {before : List Signal} {final : PeerTurn} {first second : Ending}
    (left : StoppedBy before final first) (right : StoppedBy before final second) :
    first = second := by
  cases first <;> cases second <;> simp only [StoppedBy] at left right
  · rfl
  · rcases right.1 with sent | sent <;> simp [left.1] at sent
  · simp [left.1] at right
  · rcases left.1 with sent | sent <;> simp [right.1] at sent
  · rcases left.1 with sent | sent <;> rcases right.1 with again | again <;> simp_all
  · rcases left.1 with sent | sent <;> simp [right.1] at sent
  · simp [right.1] at left
  · rcases right.1 with sent | sent <;> simp [left.1] at sent
  · rfl

/-! ## The endings of the receive loop -/

/-- Reading is over and no subscript was out of range. -/
structure Over (final : PeerTurn) : Prop where
  reading : final.peer.reading = none
  fault : final.fault = false

theorem receive_over {options : CommonOptions} {ended : Bool} {turn : PeerTurn} (halted : Over turn)
    (fuel : Nat) (input : Bytes) : receive options ended fuel turn input = turn :=
  receive_of_none fuel (receiveStep?_stopped halted.reading)

theorem close_stops (turn : PeerTurn) (isOpen : turn.peer.isOpen = true)
    (writeQueue : turn.peer.writeQueue = []) (fault : turn.fault = false) :
    Over turn.close ∧ StoppedBy turn.signals turn.close .clean := by
  simp only [PeerTurn.close, isOpen, if_true]
  exact ⟨⟨rfl, fault⟩, rfl, writeQueue⟩

/-- An error on an open socket is reported and followed by the close. -/
theorem handleError_over (turn : PeerTurn) (isOpen : turn.peer.isOpen = true)
    (writeQueue : turn.peer.writeQueue = []) (fault : turn.fault = false) {errorCode : ErrorCode}
    (notAborted : errorCode ≠ .operationAborted) :
    let final := turn.handleError errorCode
    Over final ∧ final.signals = turn.signals ++ [.errorOccurred errorCode, .closed] ∧
      final.peer.writeQueue = [] := by
  have opened : (turn.enqueue (.errorOccurred errorCode)).peer.isOpen = true := isOpen
  simp only [PeerTurn.handleError, notAborted, if_false, PeerTurn.close, opened, if_true]
  exact ⟨⟨rfl, fault⟩, List.append_assoc turn.signals [.errorOccurred errorCode] [.closed],
    writeQueue⟩

theorem handleError_stops {body : Bytes} {turn : PeerTurn} (state : Dispatching body turn)
    {errorCode : ErrorCode} (notAborted : errorCode ≠ .operationAborted) :
    let final := turn.handleError errorCode
    Over final ∧ StoppedBy turn.signals final (.error errorCode) := by
  obtain ⟨halted, sent, writeQueue⟩ :=
    handleError_over turn state.isOpen state.writeQueue state.fault notAborted
  exact ⟨halted, Or.inl sent, writeQueue⟩

/-- A payload frame raises `ready` even when its body is then rejected. -/
theorem ensureReady_handleError_stops {body : Bytes} {turn : PeerTurn} (state : Dispatching body turn)
    {errorCode : ErrorCode} (notAborted : errorCode ≠ .operationAborted) :
    let final := turn.ensureReady.handleError errorCode
    Over final ∧ StoppedBy turn.signals final (.error errorCode) := by
  have raised := state.ensureReady
  obtain ⟨halted, sent, writeQueue⟩ :=
    handleError_over turn.ensureReady raised.isOpen raised.writeQueue raised.fault notAborted
  rw [ensureReady_signals] at sent
  refine ⟨halted, ?_, writeQueue⟩
  cases ready : turn.peer.ready with
  | true => exact Or.inl (by simpa [readySignal, ready] using sent)
  | false => exact Or.inr (by simpa [readySignal, ready] using sent)

/-- The health-check response is a valid frame under every limit that does not wrap. -/
theorem validOutgoingFrame_healthCheckResponse {options : CommonOptions}
    (noWrap : NoWrap options) :
    validOutgoingFrame options makeHealthCheckResponseFrame = true := by
  have limit := sizeT_userLimit noWrap
  have size : (decodeUint32 (makeHealthCheckResponseFrame.take headerSize)).toNat = 1 := by decide
  have type : MessageType.ofByte? (makeHealthCheckResponseFrame.getD headerSize 0) =
      some .healthCheckResponse := by decide
  have length : makeHealthCheckResponseFrame.length = 5 := by decide
  have total : sizeT (headerSize + 1) = 5 := by decide
  have fits : 1 ≤ options.maxMessageSize + typeSize := Nat.le_add_left 1 options.maxMessageSize
  have long : ¬ 5 < headerSize + typeSize := by decide
  have nonempty : ¬ 1 < typeSize := by decide
  simp only [validOutgoingFrame, size, type, length, limit, total, long, nonempty, fits, ne_eq,
    not_true_eq_false, or_self, if_false, decide_true]

theorem readHealthCheck_late {options : CommonOptions} {body : Bytes} {turn : PeerTurn}
    (state : Dispatching body turn) (late : turn.peer.ready = true) :
    let final := turn.readHealthCheck options
    Over final ∧ StoppedBy turn.signals final (.error .operationNotSupported) := by
  simp only [PeerTurn.readHealthCheck, late, if_true]
  exact handleError_stops state (by decide)

theorem readHealthCheck_answered {options : CommonOptions} (noWrap : NoWrap options) {body : Bytes}
    {turn : PeerTurn} (state : Dispatching body turn) (first : turn.peer.ready = false)
    (room : 0 < options.maxSendQueueSize) :
    let final := turn.readHealthCheck options
    Over final ∧ StoppedBy turn.signals final .answered := by
  have notFull : ¬ options.maxSendQueueSize = 0 := by omega
  refine ⟨⟨?_, ?_⟩, ?_, ?_, ?_⟩ <;>
    simp [PeerTurn.readHealthCheck, first, PeerTurn.pushFrame, state.isOpen, state.writeQueue,
      validOutgoingFrame_healthCheckResponse noWrap, notFull, PeerTurn.write, PeerTurn.asyncWait,
      PeerTurn.cancel, state.reading, state.fault]

theorem readHealthCheck_noQueue {options : CommonOptions} {body : Bytes} {turn : PeerTurn}
    (state : Dispatching body turn) (first : turn.peer.ready = false)
    (full : options.maxSendQueueSize = 0) :
    let final := turn.readHealthCheck options
    Over final ∧ StoppedBy turn.signals final (.error .noBufferSpace) := by
  have closing : Dispatching body
      { turn with peer := { turn.peer with closeAfterWrite := true } } :=
    ⟨state.isOpen, state.reading, state.readBody, state.writeQueue, state.fault⟩
  have stops := handleError_stops closing (show ErrorCode.noBufferSpace ≠ .operationAborted by decide)
  simpa [PeerTurn.readHealthCheck, first, PeerTurn.pushFrame, state.isOpen, full] using stops

/-- A complete header of inadmissible declared size is refused. -/
theorem onReadHeader_refused {options : CommonOptions} (noWrap : NoWrap options)
    {turn : PeerTurn} (waiting : Waiting turn) {header : Bytes} (complete : header.length = headerSize)
    (bad : BigEndian.ofBytes header = 0 ∨ bodyLimit options < BigEndian.ofBytes header) :
    let final := (completed turn).run options (.readHeader .success header)
    Over final ∧ StoppedBy turn.signals final (.error .messageSize) := by
  have refused : (decodeUint32 header).toNat < typeSize ∨
      (decodeUint32 header).toNat > bodyLimit options := by
    rw [decodeUint32_eq complete, typeSize]
    omega
  simp only [PeerTurn.run, PeerTurn.onReadHeader, ne_eq, not_true_eq_false, if_false, complete,
    sizeT_bodyLimit noWrap, refused, if_true]
  obtain ⟨halted, sent, writeQueue⟩ := handleError_over
    ((completed turn).cancel .readDeadline) waiting.isOpen waiting.writeQueue waiting.fault
    (show ErrorCode.messageSize ≠ .operationAborted by decide)
  exact ⟨halted, Or.inl sent, writeQueue⟩

/-- The stream ends inside a header or inside a body. -/
theorem eof_stops (options : CommonOptions) {turn : PeerTurn} (operation : PendingRead)
    (input : Bytes) (isOpen : turn.peer.isOpen = true) (writeQueue : turn.peer.writeQueue = [])
    (fault : turn.fault = false) (inside : operation = .header → input ≠ []) :
    let final :=
      (completed turn).run options (PeerTurn.readHandler operation .eof input)
    Over final ∧ StoppedBy turn.signals final (.error .eof) := by
  have stops := handleError_over
    ((completed turn).cancel .readDeadline) isOpen writeQueue fault
    (show ErrorCode.eof ≠ .operationAborted by decide)
  obtain ⟨halted, sent, queue⟩ := stops
  cases operation with
  | header =>
      have some : ¬ input.length = 0 := fun zero => inside rfl (List.length_eq_zero_iff.mp zero)
      simp only [PeerTurn.readHandler, PeerTurn.run, PeerTurn.onReadHeader, some, and_false, if_false,
        reduceCtorEq, ne_eq, not_false_eq_true, if_true]
      exact ⟨halted, Or.inl sent, queue⟩
  | body size =>
      simp only [PeerTurn.readHandler, PeerTurn.run, PeerTurn.onReadBody, reduceCtorEq, ne_eq,
        not_false_eq_true, if_true]
      exact ⟨halted, Or.inl sent, queue⟩

/-- A complete body that ends the reading. -/
theorem body_stops {options : CommonOptions} (noWrap : NoWrap options) {turn : PeerTurn}
    (waiting : Waiting turn) {body : Bytes} (announced : Announced options body) {ending : Ending}
    (stops : ∀ state, Dispatching body state → state.peer.ready = turn.peer.ready →
      Over (state.readMessage options) ∧
        StoppedBy state.signals (state.readMessage options) ending)
    (tail : Bytes) (fuel : Nat) :
    let final := receive options true (fuel + 2) turn (framed body ++ tail)
    Over final ∧ StoppedBy turn.signals final ending := by
  obtain ⟨state, dispatching, sent, ready, run⟩ := receive_body noWrap true waiting
    announced.positive announced.admissible announced.encodable tail fuel
  obtain ⟨halted, stopped⟩ := stops state dispatching ready
  simp only [run, receive_over halted]
  exact ⟨halted, sent ▸ stopped⟩

theorem refused_stops {options : CommonOptions} (noWrap : NoWrap options) {turn : PeerTurn}
    (waiting : Waiting turn) {rest : Bytes} (header : headerSize ≤ rest.length)
    (bad : declaredSize rest = 0 ∨ bodyLimit options < declaredSize rest) (fuel : Nat) :
    let final := receive options true (fuel + 1) turn rest
    Over final ∧ StoppedBy turn.signals final (.error .messageSize) := by
  have size : (rest.take headerSize).length = headerSize := by
    rw [List.length_take]
    omega
  have step := receiveStep?_full options true rest waiting.reading header
  have stops := onReadHeader_refused noWrap waiting size bad
  simp only [receive_of_step fuel step]
  exact (receive_over stops.1 fuel (rest.drop headerSize)).symm ▸ stops

theorem readUserData_large {options : CommonOptions} (noWrap : NoWrap options) {payload : Bytes}
    {turn : PeerTurn} (state : Dispatching (1 :: payload) turn)
    (large : options.maxMessageSize < payload.length) :
    let final := turn.readMessage options
    Over final ∧ StoppedBy turn.signals final (.error .messageSize) := by
  have tooLarge : (1 :: payload).length > options.maxMessageSize + typeSize := by
    simp only [List.length_cons, typeSize]
    omega
  have dispatch : turn.readMessage options = turn.readUserData options := by
    simp [PeerTurn.readMessage, state.readBody, MessageType.ofByte?]
  simp only [dispatch, PeerTurn.readUserData, state.ensureReady.readBody, sizeT_userLimit noWrap,
    tooLarge, if_true]
  exact ensureReady_handleError_stops state (by decide)

theorem readRequestResponse_short (options : CommonOptions) {body : Bytes} {turn : PeerTurn}
    (state : Dispatching body turn) (short : body.length < typeSize + requestIdSize)
    (signal : UInt64 → Bytes → Signal) :
    let final := turn.readRequestResponse options signal
    Over final ∧ StoppedBy turn.signals final (.error .messageSize) := by
  simp only [PeerTurn.readRequestResponse, state.ensureReady.readBody, short, true_or, if_true]
  exact ensureReady_handleError_stops state (by decide)

/-- The remaining bytes decide how the receive loop stops. -/
theorem receive_stops {options : CommonOptions} (noWrap : NoWrap options) {turn : PeerTurn}
    (waiting : Waiting turn) {rest : Bytes} {ending : Ending}
    (ends : Ends options turn.peer.ready rest ending) (fuel : Nat) :
    let final := receive options true (fuel + 2) turn rest
    Over final ∧ StoppedBy turn.signals final ending := by
  cases ends with
  | nothing =>
      have step := receiveStep?_short options [] waiting.reading
        (by decide)
      have stops := close_stops ((completed turn).cancel .readDeadline)
        waiting.isOpen waiting.writeQueue waiting.fault
      simp only [receive_of_step (fuel + 1) step]
      have closed : (completed turn).run options
          (PeerTurn.readHandler .header .eof []) =
          ((completed turn).cancel .readDeadline).close := by
        simp [PeerTurn.readHandler, PeerTurn.run, PeerTurn.onReadHeader]
      rw [closed, receive_over stops.1]
      exact stops
  | partialHeader some short =>
      have step := receiveStep?_short options rest waiting.reading short
      have stops := eof_stops options .header rest waiting.isOpen
        waiting.writeQueue waiting.fault (fun _ => some)
      simp only [receive_of_step (fuel + 1) step, receive_over stops.1]
      exact stops
  | emptyBody header zero =>
      exact refused_stops noWrap waiting header (Or.inl zero) (fuel + 1)
  | largeBody header large =>
      exact refused_stops noWrap waiting header (Or.inr large) (fuel + 1)
  | partialBody header positive admissible short =>
      have size : (rest.take headerSize).length = headerSize := by
        rw [List.length_take]
        omega
      have decoded := decodeUint32_eq size
      obtain ⟨awaiting, sent, _⟩ := onReadHeader_admissible noWrap waiting size
        (by rw [decoded]; exact positive) (by rw [decoded]; exact admissible)
      have first := receiveStep?_full options true rest waiting.reading header
      have second := receiveStep?_short options (rest.drop headerSize)
        awaiting.reading (by
          rw [List.length_drop, PendingRead.size, decoded]
          simp only [declaredSize] at short
          omega)
      obtain ⟨halted, stopped⟩ := eof_stops options
        (.body (decodeUint32 (rest.take headerSize)).toNat) (rest.drop headerSize) awaiting.isOpen
        awaiting.writeQueue awaiting.fault (by simp)
      rw [sent] at stopped
      simp only [receive_of_step (fuel + 1) first]
      exact (receive_of_step fuel second).symm ▸
        (receive_over halted fuel []).symm ▸ ⟨halted, stopped⟩
  | largeUserData announced large =>
      refine body_stops noWrap waiting announced ?_ _ fuel
      intro state dispatching _
      exact readUserData_large noWrap dispatching large
  | shortRequest announced short =>
      refine body_stops noWrap waiting announced ?_ _ fuel
      intro state dispatching _
      have stops := readRequestResponse_short options dispatching short .requestReceived
      simpa [PeerTurn.readMessage, dispatching.readBody, MessageType.ofByte?] using stops
  | shortResponse announced short =>
      refine body_stops noWrap waiting announced ?_ _ fuel
      intro state dispatching _
      have stops := readRequestResponse_short options dispatching short .responseReceived
      simpa [PeerTurn.readMessage, dispatching.readBody, MessageType.ofByte?] using stops
  | unknownType announced large =>
      refine body_stops noWrap waiting announced ?_ _ fuel
      intro state dispatching _
      simp only [PeerTurn.readMessage, dispatching.readBody, ofByte?_of_lt large]
      exact handleError_stops dispatching (by decide)
  | lateHealthCheck announced late =>
      refine body_stops noWrap waiting announced ?_ _ fuel
      intro state dispatching ready
      simpa [PeerTurn.readMessage, dispatching.readBody, MessageType.ofByte?] using
        readHealthCheck_late dispatching (ready.trans late)
  | healthCheck announced first room =>
      refine body_stops noWrap waiting announced ?_ _ fuel
      intro state dispatching ready
      simpa [PeerTurn.readMessage, dispatching.readBody, MessageType.ofByte?] using
        readHealthCheck_answered noWrap dispatching (ready.trans first) room
  | noQueue announced first full =>
      refine body_stops noWrap waiting announced ?_ _ fuel
      intro state dispatching ready
      simpa [PeerTurn.readMessage, dispatching.readBody, MessageType.ofByte?] using
        readHealthCheck_noQueue dispatching (ready.trans first) full

/-! ## Every stream splits -/

/-- A complete announced body and what follows it. -/
theorem split_announced (options : CommonOptions) {input : Bytes}
    (header : headerSize ≤ input.length) (positive : typeSize ≤ declaredSize input)
    (admissible : declaredSize input ≤ bodyLimit options)
    (complete : headerSize + declaredSize input ≤ input.length) :
    ∃ body tail, input = framed body ++ tail ∧ Announced options body := by
  have headerLength : (input.take headerSize).length = 4 := by
    rw [List.length_take, headerSize]
    simp only [headerSize] at header
    omega
  have size : ((input.drop headerSize).take (declaredSize input)).length = declaredSize input := by
    rw [List.length_take, List.length_drop]
    omega
  refine ⟨(input.drop headerSize).take (declaredSize input),
    (input.drop headerSize).drop (declaredSize input), ?_, ⟨?_, ?_, ?_⟩⟩
  · have written := BigEndian.toBytes_ofBytes (input.take headerSize)
    rw [headerLength] at written
    rw [framed, size, declaredSize, written, List.append_assoc, List.take_append_drop,
      List.take_append_drop]
  · rw [size]
    exact positive
  · rw [size]
    exact admissible
  · rw [size]
    have bound := BigEndian.ofBytes_lt (input.take headerSize)
    rw [headerLength] at bound
    exact bound

/-- A complete announced body is a frame, or it ends the reading. -/
theorem frame_or_ends (options : CommonOptions) (ready : Bool) {body : Bytes}
    (announced : Announced options body) (tail : Bytes) :
    (∃ content, Frame options.maxMessageSize content body ∧ content ≠ .healthCheck) ∨
      ∃ ending, Ends options ready (framed body ++ tail) ending := by
  cases body with
  | nil => exact absurd announced.positive (by decide)
  | cons type rest =>
      have frame (content : Content)
          (shape : Body options.maxMessageSize content (type :: rest)) :
          Frame options.maxMessageSize content (type :: rest) :=
        ⟨shape, announced.admissible, announced.encodable⟩
      have requestId (long : ¬ (type :: rest).length < typeSize + requestIdSize) :
          ∃ value : UInt64, rest = BigEndian.toBytes 8 value.toNat ++ rest.drop 8 := by
        have size : (rest.take 8).length = 8 := by
          rw [List.length_take]
          simp only [List.length_cons, typeSize, requestIdSize] at long
          omega
        have bound := BigEndian.ofBytes_lt (rest.take 8)
        have written := BigEndian.toBytes_ofBytes (rest.take 8)
        rw [size] at bound written
        refine ⟨UInt64.ofNat (BigEndian.ofBytes (rest.take 8)), ?_⟩
        rw [UInt64.toNat_ofNat_of_lt' bound, written, List.take_append_drop]
      cases known : MessageType.ofByte? type with
      | none => exact Or.inr ⟨_, .unknownType announced (lt_of_ofByte?_none known)⟩
      | some message =>
          have code := toByte_of_ofByte? known
          cases message with
          | heartbeat =>
              subst code
              exact Or.inl ⟨_, frame _ (.heartbeat rest), by simp⟩
          | userData =>
              subst code
              by_cases fits : rest.length ≤ options.maxMessageSize
              · exact Or.inl ⟨_, frame _ (.userData fits), by simp⟩
              · exact Or.inr ⟨_, .largeUserData announced (by omega)⟩
          | healthCheck =>
              subst code
              cases ready with
              | true => exact Or.inr ⟨_, .lateHealthCheck announced rfl⟩
              | false =>
                  rcases Nat.eq_zero_or_pos options.maxSendQueueSize with full | room
                  · exact Or.inr ⟨_, .noQueue announced rfl full⟩
                  · exact Or.inr ⟨_, .healthCheck announced rfl room⟩
          | healthCheckResponse =>
              subst code
              exact Or.inl ⟨_, frame _ (.healthCheckResponse rest), by simp⟩
          | request =>
              subst code
              by_cases short : (4 :: rest).length < typeSize + requestIdSize
              · exact Or.inr ⟨_, .shortRequest announced short⟩
              · obtain ⟨value, split⟩ := requestId short
                exact Or.inl ⟨.request value (rest.drop 8),
                  frame _ (split ▸ .request value (rest.drop 8)), by simp⟩
          | response =>
              subst code
              by_cases short : (5 :: rest).length < typeSize + requestIdSize
              · exact Or.inr ⟨_, .shortResponse announced short⟩
              · obtain ⟨value, split⟩ := requestId short
                exact Or.inl ⟨.response value (rest.drop 8),
                  frame _ (split ▸ .response value (rest.drop 8)), by simp⟩

/-- The leading frames of a stream and the ending its remainder decides. -/
theorem exists_leads (options : CommonOptions) (input : Bytes) (ready : Bool) :
    ∃ contents rest ending, Leads options.maxMessageSize input contents rest ∧
      Ends options (ready || contents.any raisesReady) rest ending := by
  induction size : input.length using Nat.strong_induction_on generalizing input ready with
  | h bound ih =>
      have stops {ending : Ending} (ends : Ends options ready input ending) :
          ∃ contents rest ending, Leads options.maxMessageSize input contents rest ∧
            Ends options (ready || contents.any raisesReady) rest ending :=
        ⟨[], input, ending, .nil input, by simpa using ends⟩
      by_cases empty : input = []
      · subst empty
        exact stops .nothing
      by_cases header : headerSize ≤ input.length
      · by_cases zero : declaredSize input = 0
        · exact stops (.emptyBody header zero)
        by_cases large : bodyLimit options < declaredSize input
        · exact stops (.largeBody header large)
        have positive : typeSize ≤ declaredSize input := by
          rw [typeSize]
          omega
        by_cases short : input.length < headerSize + declaredSize input
        · exact stops (.partialBody header positive (by omega) short)
        obtain ⟨body, tail, split, announced⟩ :=
          split_announced options header positive (by omega) (by omega)
        rcases frame_or_ends options ready announced tail with ⟨content, frame, other⟩ | ⟨ending, ends⟩
        · have smaller : tail.length < bound := by
            rw [← size, split, List.length_append, framed_length, headerSize]
            omega
          obtain ⟨contents, rest, ending, leads, ends⟩ :=
            ih tail.length smaller tail (ready || raisesReady content) rfl
          exact ⟨content :: contents, rest, ending, split ▸ .cons frame other leads,
            by simpa [Bool.or_assoc] using ends⟩
        · exact stops (split ▸ ends)
      · exact stops (.partialHeader empty (by omega))

/-- The receive loop reports the leading frames and then stops. -/
theorem receive_leads {options : CommonOptions} (noWrap : NoWrap options) {input rest : Bytes}
    {contents : List Content} (leads : Leads options.maxMessageSize input contents rest)
    {turn : PeerTurn} (waiting : Waiting turn) {ending : Ending}
    (ends : Ends options (turn.peer.ready || contents.any raisesReady) rest ending) (fuel : Nat)
    (enough : input.length + 2 ≤ fuel) :
    let final := receive options true fuel turn input
    Over final ∧ StoppedBy (turn.signals ++ reports turn.peer.ready contents) final ending := by
  induction leads generalizing turn fuel with
  | nil rest =>
      obtain ⟨spare, rfl⟩ : ∃ spare, fuel = spare + 2 := ⟨fuel - 2, by omega⟩
      simpa [reports] using receive_stops noWrap waiting (by simpa using ends) spare
  | @cons content body tail rest contents frame other leads ih =>
      rw [List.length_append, framed_length, headerSize] at enough
      obtain ⟨spare, rfl⟩ : ∃ spare, fuel = spare + 2 := ⟨fuel - 2, by omega⟩
      obtain ⟨next, run, waitingNext, sent, ready⟩ :=
        receive_frame noWrap true waiting frame other tail spare
      have stops := ih waitingNext (by simpa [ready, Bool.or_assoc] using ends) spare (by omega)
      simp only [run]
      rw [sent, ready, List.append_assoc] at stops
      exact stops

theorem declaredSize_framed {body : Bytes} (encodable : body.length < 2 ^ 32) (tail : Bytes) :
    declaredSize (framed body ++ tail) = body.length := by
  have size : ((framed body ++ tail).take headerSize).length = 4 := by
    rw [List.length_take, List.length_append, framed_length, headerSize]
    omega
  rw [declaredSize, ← decodeUint32_eq size, decode_framed encodable]

theorem framed_injective {first second left right : Bytes} (small : first.length < 2 ^ 32)
    (fits : second.length < 2 ^ 32) (same : framed first ++ left = framed second ++ right) :
    first = second := by
  have size := congrArg declaredSize same
  rw [declaredSize_framed small, declaredSize_framed fits] at size
  have headers := List.append_inj same (by rw [framed_length, framed_length, size])
  exact (List.append_inj headers.1 (by simp)).2

/-- A remainder that decides an ending does not begin with another frame. -/
theorem Ends.not_frame {options : CommonOptions} {ready : Bool} {rest : Bytes} {ending : Ending}
    (ends : Ends options ready rest ending) {content : Content} {body tail : Bytes}
    (frame : Frame options.maxMessageSize content body) (other : content ≠ .healthCheck) :
    rest ≠ framed body ++ tail := by
  have positive := frame.shape.positive
  have admissible := frame.admissible
  have declared := declaredSize_framed frame.encodable tail
  have length : (framed body ++ tail).length = headerSize + body.length + tail.length := by
    rw [List.length_append, framed_length]
  intro split
  cases ends with
  | nothing =>
      have zero := congrArg List.length split
      rw [length, headerSize] at zero
      simp at zero
      omega
  | partialHeader some short =>
      rw [split, length] at short
      omega
  | emptyBody header zero =>
      rw [split, declared, typeSize] at *
      omega
  | largeBody header large =>
      rw [split, declared, bodyLimit] at large
      omega
  | partialBody header positive' admissible' short =>
      rw [split, declared, length] at short
      omega
  | largeUserData announced large =>
      have shape := framed_injective announced.encodable frame.encodable split ▸ frame.shape
      cases shape with
      | userData fits => omega
  | shortRequest announced short =>
      have shape := framed_injective announced.encodable frame.encodable split ▸ frame.shape
      cases shape with
      | request requestId payload =>
          simp [typeSize, requestIdSize] at short
          omega
  | shortResponse announced short =>
      have shape := framed_injective announced.encodable frame.encodable split ▸ frame.shape
      cases shape with
      | response requestId payload =>
          simp [typeSize, requestIdSize] at short
          omega
  | unknownType announced large =>
      have shape := framed_injective announced.encodable frame.encodable split ▸ frame.shape
      cases shape <;> exact absurd large (by decide)
  | lateHealthCheck announced late =>
      have shape := framed_injective announced.encodable frame.encodable split ▸ frame.shape
      cases shape
      exact other rfl
  | healthCheck announced first room =>
      have shape := framed_injective announced.encodable frame.encodable split ▸ frame.shape
      cases shape
      exact other rfl
  | noQueue announced first full =>
      have shape := framed_injective announced.encodable frame.encodable split ▸ frame.shape
      cases shape
      exact other rfl

/-- Every byte string followed by the end of the stream is accepted up to its first
ill-formed frame: one report for each leading frame, then exactly the ending the
remaining bytes decide, with every subscript in range. -/
theorem receiveAll_accepts (options : CommonOptions) (noWrap : NoWrap options) (input : Bytes) :
    ∃ contents rest, Leads options.maxMessageSize input contents rest ∧
      (∀ content body tail, Frame options.maxMessageSize content body →
        content ≠ .healthCheck → rest ≠ framed body ++ tail) ∧
      (∃! ending, Ends options (contents.any raisesReady) rest ending) ∧
      let final := receiveAll options true input
      (∀ ending, StoppedBy (reports false contents) final ending ↔
        Ends options (contents.any raisesReady) rest ending) ∧
      final.peer.reading = none ∧ final.fault = false := by
  obtain ⟨contents, rest, ending, leads, ends⟩ := exists_leads options input false
  rw [Bool.false_or] at ends
  have fresh : (started options).peer.ready = false := rfl
  have stopsWith {other : Ending} (decided : Ends options (contents.any raisesReady) rest other) :
      Over (receiveAll options true input) ∧
        StoppedBy (reports false contents) (receiveAll options true input) other :=
    receive_leads noWrap leads (waiting_started options) (by simpa [fresh] using decided)
      (input.length + 2) (Nat.le_refl _)
  obtain ⟨halted, stopped⟩ := stopsWith ends
  refine ⟨contents, rest, leads, fun content body tail frame other => ends.not_frame frame other,
    ⟨ending, ends, ?_⟩, ?_, halted.reading, halted.fault⟩
  · intro other decided
    exact (stopsWith decided).2.unique stopped
  · intro other
    constructor
    · intro observed
      rw [StoppedBy.unique observed stopped]
      exact ends
    · intro decided
      exact (stopsWith decided).2

/-- A heartbeat followed by a lone byte of a header. -/
theorem receiveAll_accepts_heartbeat :
    ∃ contents rest, Leads 32768 (makeHeartbeatFrame ++ [0]) contents rest ∧
      (∀ content body tail, Frame 32768 content body →
        content ≠ .healthCheck → rest ≠ framed body ++ tail) ∧
      (∃! ending, Ends {} (contents.any raisesReady) rest ending) ∧
      let final := receiveAll {} true (makeHeartbeatFrame ++ [0])
      (∀ ending, StoppedBy (reports false contents) final ending ↔
        Ends {} (contents.any raisesReady) rest ending) ∧
      final.peer.reading = none ∧ final.fault = false :=
  receiveAll_accepts {} (by decide) (makeHeartbeatFrame ++ [0])

/-- A peer that may queue nothing answers a health check with `no_buffer_space`. -/
theorem receiveAll_healthCheck_noQueue :
    let final := receiveAll { maxSendQueueSize := 0 } true makeHealthCheckFrame
    final.peer.writeQueue ≠ [makeHealthCheckResponseFrame] ∧
      final.signals = [.errorOccurred .noBufferSpace, .closed] := by
  decide

end UnixDomainStream.Acceptance
