import Mathlib.Data.Nat.Notation

/-!
# Error codes and options

`asio::error_code` and the part of `options.hpp` that decides something without
a clock.  Intervals and timeouts only choose when a timer expires; here a timer
may expire whenever its wait is outstanding.
-/

namespace UnixDomainStream

/-- `asio::error_code`; `success` is the one value that tests as false. -/
inductive ErrorCode where
  | success
  | eof
  | operationAborted
  | messageSize
  | timedOut
  | noBufferSpace
  | operationNotSupported
  | invalidArgument
  | badDescriptor
  | connectionReset
  | notConnected
  | system (value : Nat)
  deriving DecidableEq, Repr

structure CommonOptions where
  maxMessageSize : Nat := 32 * 1024
  maxSendQueueSize : Nat := 1024
  invalidateConnectionOnRequestError : Bool := true
  deriving DecidableEq, Repr

end UnixDomainStream
