import UnixDomainStream.Protocol

/-!
# The frame grammar

What a receiver configured with a payload limit takes for one well-formed frame,
said without the receiver: a four-byte length, then a body whose shape depends
on its first byte.  The builders of `impl/protocol.hpp` produce such frames.
-/

namespace UnixDomainStream.Grammar

open Protocol UnixDomainStream.Library

inductive Content where
  | heartbeat
  | userData (payload : Bytes)
  | healthCheck
  | healthCheckResponse
  | request (requestId : UInt64) (payload : Bytes)
  | response (requestId : UInt64) (payload : Bytes)
  deriving DecidableEq, Repr

/-- The well-formed bodies under a payload limit.  Frames without a payload may
carry padding. -/
inductive Body (limit : Nat) : Content → Bytes → Prop where
  | heartbeat (padding : Bytes) : Body limit .heartbeat (0 :: padding)
  | userData {payload : Bytes} (fits : payload.length ≤ limit) :
      Body limit (.userData payload) (1 :: payload)
  | healthCheck (padding : Bytes) : Body limit .healthCheck (2 :: padding)
  | healthCheckResponse (padding : Bytes) : Body limit .healthCheckResponse (3 :: padding)
  | request (requestId : UInt64) (payload : Bytes) :
      Body limit (.request requestId payload)
        (4 :: (BigEndian.toBytes 8 requestId.toNat ++ payload))
  | response (requestId : UInt64) (payload : Bytes) :
      Body limit (.response requestId payload)
        (5 :: (BigEndian.toBytes 8 requestId.toNat ++ payload))

/-- A body behind its length.  Every admissible length leaves room for a request
id besides a payload of the limit. -/
structure Frame (limit : Nat) (content : Content) (body : Bytes) : Prop where
  shape : Body limit content body
  admissible : body.length ≤ limit + typeSize + requestIdSize
  encodable : body.length < 2 ^ 32

def framed (body : Bytes) : Bytes := BigEndian.toBytes 4 body.length ++ body

theorem framed_length (body : Bytes) : (framed body).length = headerSize + body.length := by
  simp [framed, headerSize]

theorem Body.positive {limit : Nat} {content : Content} {body : Bytes}
    (shape : Body limit content body) : typeSize ≤ body.length := by
  cases shape <;> simp [typeSize]

/-- The header of a framed body reads back as the body's length. -/
theorem decode_framed {body : Bytes} (encodable : body.length < 2 ^ 32) (rest : Bytes) :
    (decodeUint32 ((framed body ++ rest).take headerSize)).toNat = body.length := by
  have header : (framed body ++ rest).take headerSize = BigEndian.toBytes 4 body.length := by
    rw [framed, List.append_assoc]
    exact List.take_left' (BigEndian.toBytes_length 4 body.length)
  rw [header, decodeUint32_eq (BigEndian.toBytes_length 4 body.length)]
  exact BigEndian.ofBytes_toBytes 4 body.length encodable

/-! ## What the builders write -/

/-- `make_frame` frames its type byte and data, as long as the length field holds
their number. -/
theorem makeFrame_eq (type : MessageType) (data : Bytes) (encodable : data.length + 1 < 2 ^ 32) :
    makeFrame type data = framed (type.toByte :: data) := by
  have exact64 : sizeT (typeSize + data.length) = data.length + 1 := by
    simp only [sizeT, typeSize]
    omega
  have exact32 : (UInt32.ofNat (data.length + 1)).toNat = data.length + 1 :=
    UInt32.toNat_ofNat_of_lt' encodable
  simp only [makeFrame, exact64, encodeUint32_eq, exact32, framed, List.length_cons]

theorem makeRequestResponseFrame_eq (type : MessageType) (requestId : UInt64) (data : Bytes)
    (encodable : data.length + 9 < 2 ^ 32) :
    makeRequestResponseFrame type requestId data =
      framed (type.toByte :: (BigEndian.toBytes 8 requestId.toNat ++ data)) := by
  have exact64 : sizeT (typeSize + requestIdSize + data.length) = data.length + 9 := by
    simp only [sizeT, typeSize, requestIdSize]
    omega
  have exact32 : (UInt32.ofNat (data.length + 9)).toNat = data.length + 9 :=
    UInt32.toNat_ofNat_of_lt' encodable
  have size : (type.toByte :: (BigEndian.toBytes 8 requestId.toNat ++ data)).length =
      data.length + 9 := by
    simp
    omega
  simp only [makeRequestResponseFrame, exact64, encodeUint32_eq, exact32, encodeUint64_eq, framed,
    size]

end UnixDomainStream.Grammar
