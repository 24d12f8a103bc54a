import Mathlib.Data.List.TakeDrop
import UnixDomainStream.Peer.Messages

/-!
# Size limits at both ends

A sender checks a frame in `valid_outgoing_frame`, a receiver the length in the header and
then the body.  The sums of the limits are `size_t` arithmetic, so they wrap around for the
largest values of `max_message_size`, and there the ends no longer agree.
-/

namespace UnixDomainStream

open Protocol Library

/-- A receiving peer announces no `message_size` error on the frame's header, expects
exactly its body, and announces none on the body. -/
structure PassesSizeChecks (options : CommonOptions) (frame : Bytes) : Prop where
  header : ∀ peer : Peer,
    let turn := PeerTurn.run options
      (PeerHandler.readHeader .success (frame.take headerSize)) { peer }
    .errorOccurred .messageSize ∉ turn.signals ∧
      turn.peer.readBody.length = (frame.drop headerSize).length
  body : ∀ peer : Peer, peer.readBody.length = (frame.drop headerSize).length →
    .errorOccurred .messageSize ∉ (PeerTurn.run options
      (PeerHandler.readBody .success (frame.drop headerSize)) { peer }).signals

/-- The size limits for one payload agree at both ends: the sender accepts its frames
exactly when the payload is within the limit and the body length fits in 32 bits, it
accepts the heartbeat, and what it accepts the receiver takes. -/
structure SizesAgree (options : CommonOptions) (requestId : UInt64) (data : Bytes) : Prop where
  userData : validOutgoingFrame options (makeUserDataFrame data) = true ↔
    data.length ≤ options.maxMessageSize ∧ typeSize + data.length < 2 ^ 32
  request : validOutgoingFrame options (makeRequestFrame requestId data) = true ↔
    data.length ≤ options.maxMessageSize ∧ typeSize + requestIdSize + data.length < 2 ^ 32
  response : validOutgoingFrame options (makeResponseFrame requestId data) = true ↔
    data.length ≤ options.maxMessageSize ∧ typeSize + requestIdSize + data.length < 2 ^ 32
  heartbeat : validOutgoingFrame options makeHeartbeatFrame = true
  received : ∀ frame ∈ [makeUserDataFrame data, makeRequestFrame requestId data,
    makeResponseFrame requestId data, makeHeartbeatFrame],
      validOutgoingFrame options frame = true → PassesSizeChecks options frame

/-! ## Frames -/

/-- A frame of a request or a response is one of its id and payload. -/
theorem makeRequestResponseFrame_makeFrame (type : MessageType) (requestId : UInt64)
    (data : Bytes) :
    makeRequestResponseFrame type requestId data =
      makeFrame type (encodeUint64 requestId ++ data) := by
  simp [makeRequestResponseFrame, makeFrame, typeSize, requestIdSize, ← Nat.add_assoc]

/-- The length field keeps the low 32 bits of the body length. -/
theorem makeFrame_bodySize (type : MessageType) (data : Bytes) :
    (decodeUint32 ((makeFrame type data).take headerSize)).toNat =
      (typeSize + data.length) % 2 ^ 32 := by
  have header : (makeFrame type data).take headerSize =
      encodeUint32 (UInt32.ofNat (sizeT (typeSize + data.length))) := by
    rw [makeFrame]
    exact List.take_left' (encodeUint32_length _)
  rw [header, decodeUint32_eq (encodeUint32_length _), encodeUint32_eq,
    BigEndian.ofBytes_toBytes 4 _ (UInt32.toNat_lt _), UInt32.toNat_ofNat', sizeT]
  exact Nat.mod_mod_of_dvd _ (by decide)

theorem makeFrame_length (type : MessageType) (data : Bytes) :
    (makeFrame type data).length = headerSize + typeSize + data.length := by
  simp [makeFrame, headerSize, typeSize]
  omega

theorem makeFrame_body (type : MessageType) (data : Bytes) :
    (makeFrame type data).drop headerSize = type.toByte :: data := by
  rw [makeFrame]
  exact List.drop_left' (encodeUint32_length _)

theorem ofByte?_toByte (type : MessageType) : MessageType.ofByte? type.toByte = some type := by
  cases type <;> rfl

theorem makeFrame_type (type : MessageType) (data : Bytes) :
    MessageType.ofByte? ((makeFrame type data).getD headerSize 0) = some type := by
  have first : (makeFrame type data).getD headerSize 0 = type.toByte := by
    simp [makeFrame, headerSize, List.getD, encodeUint32]
  rw [first, ofByte?_toByte]

/-- The bounds on the body size that a sender checks. -/
def withinLimit (options : CommonOptions) (bodySize : Nat) : MessageType → Prop
  | .request | .response => typeSize + requestIdSize ≤ bodySize ∧
      bodySize ≤ sizeT (options.maxMessageSize + typeSize + requestIdSize)
  | _ => bodySize ≤ sizeT (options.maxMessageSize + typeSize)

theorem validOutgoingFrame_makeFrame (options : CommonOptions) (type : MessageType)
    (data : Bytes) :
    validOutgoingFrame options (makeFrame type data) = true ↔
      typeSize + data.length < 2 ^ 32 ∧ withinLimit options (typeSize + data.length) type := by
  have total : sizeT (headerSize + (typeSize + data.length) % 2 ^ 32) =
      headerSize + (typeSize + data.length) % 2 ^ 32 := by
    simp only [sizeT, headerSize]
    omega
  unfold validOutgoingFrame
  rw [makeFrame_bodySize, makeFrame_length, makeFrame_type]
  dsimp only
  rw [total]
  by_cases fits : typeSize + data.length < 2 ^ 32
  · have small : (typeSize + data.length) % 2 ^ 32 = typeSize + data.length := Nat.mod_eq_of_lt fits
    have long : ¬headerSize + typeSize + data.length < headerSize + typeSize := by omega
    have sized : ¬(headerSize + typeSize + data.length ≠ headerSize + (typeSize + data.length) ∨
        typeSize + data.length < typeSize) := by omega
    simp only [small, if_neg long, if_neg sized, fits, true_and]
    cases type <;> simp [withinLimit]
  · have wrapped : headerSize + typeSize + data.length ≠
        headerSize + (typeSize + data.length) % 2 ^ 32 := by
      have := Nat.mod_lt (typeSize + data.length) (show 0 < 2 ^ 32 by decide)
      omega
    have long : ¬headerSize + typeSize + data.length < headerSize + typeSize := by omega
    rw [if_neg long, if_pos (.inl wrapped)]
    exact ⟨nofun, fun within => absurd within.1 fits⟩

/-! ## The receiver -/

namespace PeerTurn

/-- No error has been reported. -/
def Errorless (turn : PeerTurn) : Prop := ∀ errorCode, .errorOccurred errorCode ∉ turn.signals

variable {turn after : PeerTurn}

theorem Errorless.quiet (errorless : turn.Errorless) (quiet : Quiet turn after) :
    after.Errorless := by
  intro errorCode
  rw [quiet.signals]
  exact errorless errorCode

theorem Errorless.enqueue (errorless : turn.Errorless) {signal : Signal}
    (other : ∀ errorCode, signal ≠ .errorOccurred errorCode) : (turn.enqueue signal).Errorless := by
  intro errorCode member
  rcases List.mem_append.mp member with old | new
  · exact errorless errorCode old
  · exact other errorCode (List.mem_singleton.mp new).symm

theorem Errorless.ensureReady (errorless : turn.Errorless) : turn.ensureReady.Errorless := by
  unfold PeerTurn.ensureReady
  split
  · exact errorless
  · have raised : Errorless { turn with peer := { turn.peer with ready := true } } := errorless
    exact (raised.quiet (cancel_quiet .readyDeadline _)).enqueue nofun

end PeerTurn

/-- A header within the limit is followed by its body. -/
theorem onReadHeader_accepts {options : CommonOptions} {bytes : Bytes}
    (size : bytes.length = headerSize) (positive : typeSize ≤ (decodeUint32 bytes).toNat)
    (within : (decodeUint32 bytes).toNat ≤
      sizeT (options.maxMessageSize + typeSize + requestIdSize)) (turn : PeerTurn)
    (errorless : turn.Errorless) :
    (turn.onReadHeader options .success bytes).Errorless ∧
      (turn.onReadHeader options .success bytes).peer.readBody.length =
        (decodeUint32 bytes).toNat := by
  have inRange : ¬((decodeUint32 bytes).toNat < typeSize ∨ (decodeUint32 bytes).toNat >
      sizeT (options.maxMessageSize + typeSize + requestIdSize)) := by omega
  unfold PeerTurn.onReadHeader
  simp only [ne_eq, not_true_eq_false, if_false, size, inRange]
  refine ⟨(errorless.quiet (PeerTurn.cancel_quiet .readDeadline turn)).quiet
    (PeerTurn.Quiet.trans ?_ (PeerTurn.readBody_quiet _)), ?_⟩
  · exact .of_eq rfl rfl rfl rfl rfl rfl
  · unfold PeerTurn.readBody PeerTurn.startReadDeadline PeerTurn.asyncRead
    split <;> simp [PeerTurn.asyncWait, PeerTurn.cancel, PeerTurn.post, List.takeD_length]

/-- A header beyond the limit is refused. -/
theorem onReadHeader_refuses {options : CommonOptions} {bytes : Bytes}
    (size : bytes.length = headerSize)
    (beyond : sizeT (options.maxMessageSize + typeSize + requestIdSize) <
      (decodeUint32 bytes).toNat) (turn : PeerTurn) :
    .errorOccurred .messageSize ∈ (turn.onReadHeader options .success bytes).signals := by
  have outside : (decodeUint32 bytes).toNat < typeSize ∨ (decodeUint32 bytes).toNat >
      sizeT (options.maxMessageSize + typeSize + requestIdSize) := .inr beyond
  unfold PeerTurn.onReadHeader
  simp only [ne_eq, not_true_eq_false, if_false, size, outside, if_true, PeerTurn.handleError]
  rw [if_neg (by decide), PeerTurn.close_signals]
  simp [PeerTurn.enqueue]

/-- What a body must satisfy for the size checks of `read_body`. -/
def bodyWithin (options : CommonOptions) (bodySize : Nat) : MessageType → Prop
  | .heartbeat => True
  | type => withinLimit options bodySize type

/-- A body within the limit of its type is taken, unless its type ends the reading. -/
theorem readMessage_accepts {options : CommonOptions} {type : MessageType} {data : Bytes}
    (message : type ≠ .healthCheck) (within : bodyWithin options (typeSize + data.length) type)
    {turn : PeerTurn} (read : turn.peer.readBody = type.toByte :: data)
    (errorless : turn.Errorless) : (turn.readMessage options).Errorless := by
  have length : turn.peer.readBody.length = typeSize + data.length := by
    rw [read, List.length_cons, Nat.add_comm, typeSize]
  have raised := errorless.ensureReady
  have kept := PeerTurn.ensureReady_readBody turn
  have request : ∀ {signal : UInt64 → Bytes → Signal},
      (∀ requestId buffer errorCode, signal requestId buffer ≠ .errorOccurred errorCode) →
      typeSize + requestIdSize ≤ typeSize + data.length ∧ typeSize + data.length ≤
        sizeT (options.maxMessageSize + typeSize + requestIdSize) →
      (turn.readRequestResponse options signal).Errorless := by
    intro signal other fits
    unfold PeerTurn.readRequestResponse
    dsimp only
    rw [kept, length, if_neg (by omega)]
    split
    · exact raised
    · exact (raised.enqueue (other _ _)).quiet (PeerTurn.readHeader_quiet _)
  unfold PeerTurn.readMessage
  simp only [read, ofByte?_toByte]
  cases type with
  | heartbeat => exact errorless.quiet (PeerTurn.readHeader_quiet _)
  | userData =>
      simp only
      unfold PeerTurn.readUserData
      dsimp only
      rw [kept, length, if_neg (Nat.not_lt.mpr within)]
      have received : (turn.ensureReady.enqueue
          (.received (turn.peer.readBody.drop typeSize))).Errorless := raised.enqueue (by simp)
      exact received.quiet (PeerTurn.readHeader_quiet _)
  | healthCheck => exact absurd rfl message
  | healthCheckResponse =>
      have received : (turn.enqueue .healthCheckResponseReceived).Errorless :=
        errorless.enqueue (by simp)
      exact received.quiet (PeerTurn.readHeader_quiet _)
  | request => exact request (by simp) within
  | response => exact request (by simp) within

/-- A frame that both checks of the receiver admit. -/
theorem passes_makeFrame {options : CommonOptions} {type : MessageType} {data : Bytes}
    (message : type ≠ .healthCheck) (fits : typeSize + data.length < 2 ^ 32)
    (header : typeSize + data.length ≤
      sizeT (options.maxMessageSize + typeSize + requestIdSize))
    (body : bodyWithin options (typeSize + data.length) type) :
    PassesSizeChecks options (makeFrame type data) := by
  have size : (decodeUint32 ((makeFrame type data).take headerSize)).toNat =
      typeSize + data.length := (makeFrame_bodySize type data).trans (Nat.mod_eq_of_lt fits)
  have whole : ((makeFrame type data).take headerSize).length = headerSize := by
    rw [List.length_take, makeFrame_length]
    omega
  constructor
  · intro peer
    have accepted := @onReadHeader_accepts options _ whole (by omega) (size ▸ header) { peer } nofun
    refine ⟨accepted.1 _, ?_⟩
    rw [makeFrame_body, List.length_cons, Nat.add_comm]
    exact accepted.2.trans size
  · rw [makeFrame_body]
    intro peer full
    have framed := @PeerTurn.onReadBody_frame options { peer } _ full.symm
    have started : ({ peer } : PeerTurn).Errorless := nofun
    have errorless := started.quiet (PeerTurn.frameRead_quiet (type.toByte :: data) _)
    have accepted := readMessage_accepts message body rfl errorless .messageSize
    rw [← framed] at accepted
    exact accepted

/-- A frame whose length the header check refuses. -/
theorem not_passes_makeFrame {options : CommonOptions} {type : MessageType} {data : Bytes}
    (fits : typeSize + data.length < 2 ^ 32)
    (beyond : sizeT (options.maxMessageSize + typeSize + requestIdSize) <
      typeSize + data.length) : ¬PassesSizeChecks options (makeFrame type data) := by
  intro passes
  have size : (decodeUint32 ((makeFrame type data).take headerSize)).toNat =
      typeSize + data.length := (makeFrame_bodySize type data).trans (Nat.mod_eq_of_lt fits)
  have whole : ((makeFrame type data).take headerSize).length = headerSize := by
    rw [List.length_take, makeFrame_length]
    omega
  have refused := @onReadHeader_refuses options _ whole (size ▸ beyond) { peer := {} }
  exact (passes.header {}).1 refused

/-! ## Agreement -/

/-- A request or a response is accepted within the limit, where the limit does not wrap. -/
theorem validOutgoingFrame_requestResponse {options : CommonOptions}
    (noWrap : options.maxMessageSize + typeSize + requestIdSize < 2 ^ 64) {type : MessageType}
    (message : type = .request ∨ type = .response) (requestId : UInt64) (data : Bytes) :
    validOutgoingFrame options (makeRequestResponseFrame type requestId data) = true ↔
      data.length ≤ options.maxMessageSize ∧
        typeSize + requestIdSize + data.length < 2 ^ 32 := by
  have limit : sizeT (options.maxMessageSize + typeSize + requestIdSize) =
      options.maxMessageSize + typeSize + requestIdSize := Nat.mod_eq_of_lt noWrap
  have size : (encodeUint64 requestId ++ data).length = requestIdSize + data.length := by
    rw [List.length_append, encodeUint64_length, requestIdSize]
  rw [makeRequestResponseFrame_makeFrame, validOutgoingFrame_makeFrame, size]
  rcases message with rfl | rfl <;> simp only [withinLimit, limit] <;> omega

theorem validOutgoingFrame_userData {options : CommonOptions}
    (noWrap : options.maxMessageSize + typeSize < 2 ^ 64) (data : Bytes) :
    validOutgoingFrame options (makeUserDataFrame data) = true ↔
      data.length ≤ options.maxMessageSize ∧ typeSize + data.length < 2 ^ 32 := by
  have limit : sizeT (options.maxMessageSize + typeSize) = options.maxMessageSize + typeSize :=
    Nat.mod_eq_of_lt noWrap
  rw [makeUserDataFrame, validOutgoingFrame_makeFrame]
  simp only [withinLimit, limit]
  omega

theorem validOutgoingFrame_heartbeat (options : CommonOptions) :
    validOutgoingFrame options makeHeartbeatFrame = true ↔
      1 ≤ sizeT (options.maxMessageSize + typeSize) := by
  rw [makeHeartbeatFrame, validOutgoingFrame_makeFrame]
  simp [withinLimit, typeSize]

/-- What a sender accepts, a receiver with the same limit takes, where it does not wrap. -/
theorem passes_of_valid {options : CommonOptions}
    (noWrap : options.maxMessageSize + typeSize + requestIdSize < 2 ^ 64) {type : MessageType}
    (message : type ≠ .healthCheck) {data : Bytes}
    (valid : validOutgoingFrame options (makeFrame type data) = true) :
    PassesSizeChecks options (makeFrame type data) := by
  have bodyLimit : sizeT (options.maxMessageSize + typeSize + requestIdSize) =
      options.maxMessageSize + typeSize + requestIdSize := Nat.mod_eq_of_lt noWrap
  have userLimit : sizeT (options.maxMessageSize + typeSize) = options.maxMessageSize + typeSize :=
    Nat.mod_eq_of_lt (by omega)
  obtain ⟨fits, within⟩ := (validOutgoingFrame_makeFrame options type data).mp valid
  refine passes_makeFrame message fits ?_ ?_
  · cases type <;> simp only [withinLimit, bodyLimit, userLimit] at within <;> omega
  · cases type with
    | heartbeat => trivial
    | _ => exact within

theorem sizesAgree_of_noWrap {options : CommonOptions}
    (noWrap : options.maxMessageSize + typeSize + requestIdSize < 2 ^ 64) (requestId : UInt64)
    (data : Bytes) : SizesAgree options requestId data where
  userData := validOutgoingFrame_userData (by omega) data
  request := validOutgoingFrame_requestResponse noWrap (.inl rfl) requestId data
  response := validOutgoingFrame_requestResponse noWrap (.inr rfl) requestId data
  heartbeat := by
    have limit : sizeT (options.maxMessageSize + typeSize) = options.maxMessageSize + typeSize :=
      Nat.mod_eq_of_lt (by omega)
    rw [validOutgoingFrame_heartbeat, limit, typeSize]
    omega
  received frame member valid := by
    simp only [List.mem_cons, List.not_mem_nil, or_false] at member
    rcases member with rfl | rfl | rfl | rfl
    · exact passes_of_valid noWrap (by decide) valid
    · rw [makeRequestFrame, makeRequestResponseFrame_makeFrame] at valid ⊢
      exact passes_of_valid noWrap (by decide) valid
    · rw [makeResponseFrame, makeRequestResponseFrame_makeFrame] at valid ⊢
      exact passes_of_valid noWrap (by decide) valid
    · exact passes_of_valid noWrap (by decide) valid

/-- Where a limit wraps, no payload that fits in a frame is treated alike. -/
theorem not_sizesAgree_of_wrap {options : CommonOptions}
    (word : options.maxMessageSize < 2 ^ 64)
    (wraps : 2 ^ 64 ≤ options.maxMessageSize + typeSize + requestIdSize) (requestId : UInt64)
    {data : Bytes} (fits : typeSize + data.length < 2 ^ 32) :
    ¬SizesAgree options requestId data := by
  intro agree
  have bodyLimit : sizeT (options.maxMessageSize + typeSize + requestIdSize) =
      options.maxMessageSize + typeSize + requestIdSize - 2 ^ 64 := by
    simp only [sizeT, typeSize, requestIdSize] at *
    omega
  simp only [typeSize, requestIdSize] at wraps bodyLimit fits
  by_cases largest : options.maxMessageSize + 1 = 2 ^ 64
  · -- The limit of the heartbeat is zero.
    have heartbeat := (validOutgoingFrame_heartbeat options).mp agree.heartbeat
    simp [typeSize, largest, sizeT] at heartbeat
  have accepted := agree.userData.mpr ⟨by omega, fits⟩
  by_cases short : typeSize + requestIdSize + data.length < 2 ^ 32
  · -- The sender refuses a request that fits.
    have size : (encodeUint64 requestId ++ data).length = requestIdSize + data.length := by
      rw [List.length_append, encodeUint64_length, requestIdSize]
    have valid := agree.request.mpr ⟨by omega, short⟩
    rw [makeRequestFrame, makeRequestResponseFrame_makeFrame, validOutgoingFrame_makeFrame, size]
      at valid
    have within := valid.2
    simp only [withinLimit, typeSize, requestIdSize, bodyLimit] at within
    omega
  · -- The receiver refuses the user data that the sender accepts.
    refine not_passes_makeFrame fits ?_ (agree.received _ List.mem_cons_self accepted)
    simp only [typeSize, requestIdSize, bodyLimit] at short ⊢
    omega

/-- Size limits at both ends.  The ends agree on every payload exactly when the sum of the
limit for requests does not wrap; where it wraps, they agree on no payload that fits in a
frame. -/
theorem size_limits_agree (maxMessageSize : UInt64) (options : CommonOptions)
    (configured : options.maxMessageSize = maxMessageSize.toNat) :
    ((∀ requestId data, SizesAgree options requestId data) ↔
      maxMessageSize.toNat + typeSize + requestIdSize < 2 ^ 64) ∧
    (2 ^ 64 ≤ maxMessageSize.toNat + typeSize + requestIdSize →
      ∀ requestId data, typeSize + data.length < 2 ^ 32 → ¬SizesAgree options requestId data) := by
  have word : options.maxMessageSize < 2 ^ 64 := configured ▸ maxMessageSize.toNat_lt
  rw [← configured]
  refine ⟨⟨fun agree => ?_, fun noWrap => sizesAgree_of_noWrap noWrap⟩,
    fun wraps requestId data fits => not_sizesAgree_of_wrap word wraps requestId fits⟩
  by_contra wraps
  exact not_sizesAgree_of_wrap word (Nat.not_lt.mp wraps) 0 (by decide) (agree 0 [])

/-- The default limit does not wrap. -/
theorem size_limits_agree_default : SizesAgree {} 7 [1, 2, 3] :=
  (size_limits_agree 32768 {} rfl).1.mpr (by decide) 7 [1, 2, 3]

/-- With the largest limit the heartbeat is refused, and with a limit eight below it the
receiver refuses the empty message that the sender accepts. -/
theorem size_limits_disagree :
    validOutgoingFrame { maxMessageSize := 2 ^ 64 - 1 } makeHeartbeatFrame = false ∧
    validOutgoingFrame { maxMessageSize := 2 ^ 64 - 9 } (makeUserDataFrame []) = true ∧
    (¬PassesSizeChecks { maxMessageSize := 2 ^ 64 - 9 } (makeUserDataFrame [])) ∧
    ¬∀ (maxMessageSize : UInt64) (options : CommonOptions),
      options.maxMessageSize = maxMessageSize.toNat →
        ∀ requestId data, SizesAgree options requestId data := by
  have heartbeat :
      validOutgoingFrame { maxMessageSize := 2 ^ 64 - 1 } makeHeartbeatFrame = false := by decide
  refine ⟨heartbeat, by decide, fun passes => ?_, fun agree => ?_⟩
  · exact (passes.header {}).1 (by decide)
  · have accepted := (agree (-1) { maxMessageSize := 2 ^ 64 - 1 } (by decide) 0 []).heartbeat
    rw [heartbeat] at accepted
    cases accepted

end UnixDomainStream
