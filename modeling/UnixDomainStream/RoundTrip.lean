import UnixDomainStream.Reader

/-!
# Round trip of the stream codec

The frames of the builders, cut anywhere and read back by the receive loop.
-/

namespace UnixDomainStream.RoundTrip

open Protocol Grammar Reader UnixDomainStream.Library

/-- What a connected peer sends: heartbeats and application messages. -/
inductive Message where
  | heartbeat
  | userData (payload : Bytes)
  | request (requestId : UInt64) (payload : Bytes)
  | response (requestId : UInt64) (payload : Bytes)
  deriving DecidableEq, Repr

def Message.frame : Message → Bytes
  | .heartbeat => makeHeartbeatFrame
  | .userData payload => makeUserDataFrame payload
  | .request requestId payload => makeRequestFrame requestId payload
  | .response requestId payload => makeResponseFrame requestId payload

def Message.event : Message → List Signal
  | .heartbeat => []
  | .userData payload => [.received payload]
  | .request requestId payload => [.requestReceived requestId payload]
  | .response requestId payload => [.responseReceived requestId payload]

def Message.payload : Message → Bytes
  | .heartbeat => []
  | .userData payload => payload
  | .request _ payload => payload
  | .response _ payload => payload

def Message.bodySize : Message → Nat
  | .heartbeat => typeSize
  | .userData payload => typeSize + payload.length
  | .request _ payload => typeSize + requestIdSize + payload.length
  | .response _ payload => typeSize + requestIdSize + payload.length

/-- The payload is within the limit and the length field holds the body length. -/
structure Message.Fits (limit : Nat) (message : Message) : Prop where
  payload : message.payload.length ≤ limit
  encodable : message.bodySize < 2 ^ 32

/-- The messages whose frames lie entirely within the first `cut` bytes. -/
def wholeFrames : Nat → List Message → List Message
  | _, [] => []
  | cut, message :: rest =>
      if message.frame.length ≤ cut then
        message :: wholeFrames (cut - message.frame.length) rest
      else []

def content : Message → Content
  | .heartbeat => .heartbeat
  | .userData payload => .userData payload
  | .request requestId payload => .request requestId payload
  | .response requestId payload => .response requestId payload

/-- Every frame a builder makes of a fitting message is well formed. -/
theorem frame_wellFormed {limit : Nat} {message : Message} (fits : message.Fits limit) :
    ∃ body, message.frame = framed body ∧ Frame limit (content message) body := by
  obtain ⟨small, encodable⟩ := fits
  cases message with
  | heartbeat =>
      refine ⟨_, makeFrame_eq .heartbeat [] (by decide), .heartbeat [], ?_, by simp⟩
      simp only [List.length_cons, List.length_nil, typeSize]
      omega
  | userData payload =>
      simp only [Message.payload, Message.bodySize, typeSize] at small encodable
      refine ⟨_, makeFrame_eq .userData payload (by omega), .userData small, ?_, ?_⟩
      · simp only [List.length_cons, typeSize]
        omega
      · simp only [List.length_cons]
        omega
  | request requestId payload =>
      simp only [Message.payload, Message.bodySize, typeSize, requestIdSize] at small encodable
      refine ⟨_, makeRequestResponseFrame_eq .request requestId payload (by omega),
        .request requestId payload, ?_, ?_⟩
      all_goals
        simp only [List.length_cons, List.length_append, BigEndian.toBytes_length, typeSize,
          requestIdSize]
        omega
  | response requestId payload =>
      simp only [Message.payload, Message.bodySize, typeSize, requestIdSize] at small encodable
      refine ⟨_, makeRequestResponseFrame_eq .response requestId payload (by omega),
        .response requestId payload, ?_, ?_⟩
      all_goals
        simp only [List.length_cons, List.length_append, BigEndian.toBytes_length, typeSize,
          requestIdSize]
        omega

theorem content_ne_healthCheck (message : Message) : content message ≠ .healthCheck := by
  cases message <;> simp [content]

def notReady (signal : Signal) : Bool := signal != .ready

/-- Apart from `ready`, a frame raises exactly its event. -/
theorem filter_signals (ready : Bool) (message : Message) :
    (signals ready (content message)).filter notReady = message.event := by
  cases message <;> cases ready <;> rfl

/-- A frame cut short raises nothing: the read of its header or of its body stays
outstanding. -/
theorem receive_cut {options : CommonOptions} (noWrap : NoWrap options) {turn : PeerTurn}
    (waiting : Waiting turn) {content : Content} {body : Bytes}
    (frame : Frame options.maxMessageSize content body) {cut : Nat}
    (short : cut < (framed body).length) (fuel : Nat) :
    (receive options false (fuel + 2) turn ((framed body).take cut)).signals = turn.signals := by
  by_cases header : cut < headerSize
  · have stuck := receiveStep?_waits options ((framed body).take cut)
      waiting.reading (by rw [List.length_take, PendingRead.size]; omega)
    rw [receive_of_none _ stuck]
  · have enough : headerSize ≤ ((framed body).take cut).length := by
      rw [List.length_take]
      omega
    have decoded : (decodeUint32 (((framed body).take cut).take headerSize)).toNat =
        body.length := by
      rw [List.take_take, Nat.min_eq_left (by omega)]
      simpa using decode_framed frame.encodable []
    have size : (((framed body).take cut).take headerSize).length = headerSize := by
      rw [List.length_take]
      omega
    obtain ⟨awaiting, sent, _⟩ := onReadHeader_admissible noWrap waiting size
      (by rw [decoded]; exact frame.shape.positive) (by rw [decoded]; exact frame.admissible)
    rw [decoded] at awaiting
    have first := receiveStep?_full options false ((framed body).take cut) waiting.reading enough
    have second := receiveStep?_waits options
      (((framed body).take cut).drop headerSize) awaiting.reading (by
        rw [framed_length] at short
        rw [List.length_drop, List.length_take, framed_length, PendingRead.size]
        omega)
    rw [receive_of_step (fuel + 1) first]
    exact (congrArg PeerTurn.signals (receive_of_none _ second)).trans sent

theorem receive_messages {options : CommonOptions} (noWrap : NoWrap options)
    (messages : List Message) (fits : ∀ message ∈ messages, message.Fits options.maxMessageSize)
    {turn : PeerTurn} (waiting : Waiting turn) (cut fuel : Nat)
    (enough : ((messages.flatMap Message.frame).take cut).length + 2 ≤ fuel) :
    (receive options false fuel turn ((messages.flatMap Message.frame).take cut)).signals.filter
        notReady =
      turn.signals.filter notReady ++ (wholeFrames cut messages).flatMap Message.event := by
  induction messages generalizing turn cut fuel with
  | nil =>
      have stuck := receiveStep?_waits options [] waiting.reading
        (by decide)
      simp [receive_of_none _ stuck, wholeFrames]
  | cons message rest ih =>
      obtain ⟨body, shape, frame⟩ := frame_wellFormed (fits message (by simp))
      by_cases whole : message.frame.length ≤ cut
      · have input : ((message :: rest).flatMap Message.frame).take cut =
            framed body ++
              (rest.flatMap Message.frame).take (cut - message.frame.length) := by
          rw [List.flatMap_cons, List.take_append, List.take_of_length_le whole, shape]
        have size := framed_length body
        rw [input, List.length_append, size] at enough
        obtain ⟨spare, rfl⟩ : ∃ spare, fuel = spare + 2 := ⟨fuel - 2, by omega⟩
        obtain ⟨next, run, waitingNext, sent, _⟩ := receive_frame noWrap false waiting
          frame (content_ne_healthCheck message)
          ((rest.flatMap Message.frame).take (cut - message.frame.length)) spare
        rw [input, run, ih (fun other member => fits other (by simp [member])) waitingNext _ spare
          (by simp only [headerSize] at enough; omega), sent, List.filter_append, filter_signals,
          wholeFrames, if_pos whole, List.flatMap_cons, List.append_assoc]
      · have input : ((message :: rest).flatMap Message.frame).take cut =
            (framed body).take cut := by
          rw [List.flatMap_cons, List.take_append_of_le_length (by omega), shape]
        obtain ⟨spare, rfl⟩ : ∃ spare, fuel = spare + 2 := ⟨fuel - 2, by omega⟩
        rw [input, receive_cut noWrap waiting frame (by rw [← shape]; omega) spare, wholeFrames,
          if_neg whole, List.flatMap_nil, List.append_nil]

/-- Whatever prefix of the frames of fitting messages arrives, the receive loop
reports exactly the messages that arrived whole, in order, and no error. -/
theorem receiveAll_prefix (options : CommonOptions) (noWrap : NoWrap options)
    (messages : List Message) (fits : ∀ message ∈ messages, message.Fits options.maxMessageSize)
    (cut : Nat) :
    let final := receiveAll options false ((messages.flatMap Message.frame).take cut)
    final.signals.filter notReady = (wholeFrames cut messages).flatMap Message.event ∧
      ∀ errorCode, Signal.errorOccurred errorCode ∉ final.signals := by
  have events := receive_messages noWrap messages fits (waiting_started options) cut _
    (Nat.le_refl _)
  refine ⟨events, ?_⟩
  intro errorCode member
  have kept : Signal.errorOccurred errorCode ∈
      (wholeFrames cut messages).flatMap Message.event := by
    have filtered := List.mem_filter.mpr ⟨member, (rfl : notReady (.errorOccurred errorCode) = true)⟩
    rw [receiveAll, events] at filtered
    exact filtered
  obtain ⟨message, _, reported⟩ := List.mem_flatMap.mp kept
  cases message <;> simp [Message.event] at reported

/-- A request and half of the next frame. -/
theorem receiveAll_prefix_request :
    let messages := [Message.request 7 [1, 2], .userData [3]]
    let final := receiveAll {} false ((messages.flatMap Message.frame).take 18)
    final.signals.filter notReady = (wholeFrames 18 messages).flatMap Message.event ∧
      ∀ errorCode, Signal.errorOccurred errorCode ∉ final.signals :=
  receiveAll_prefix {} (by decide) [.request 7 [1, 2], .userData [3]]
    (by
      intro message member
      simp only [List.mem_cons, List.not_mem_nil, or_false] at member
      rcases member with rfl | rfl <;> exact ⟨by decide, by decide⟩) 18

end UnixDomainStream.RoundTrip
