import Mathlib.Logic.Function.Basic
import UnixDomainStream.Options
import UnixDomainStream.Protocol

/-!
# One end of a connection

`impl/peer.hpp`.  A `Peer` is the object's state on the I/O thread together with
the operations it has outstanding.  A handler runs as a `PeerTurn`: it updates the
peer, posts further handlers to the I/O executor and enqueues signals to the
dispatcher.  Closing a socket or cancelling a timer queues the outstanding
operation's handler with `operation_aborted`; it never recalls a queued handler.
-/

namespace UnixDomainStream

open Protocol

/-- What the operating system tells about the process at the other end. -/
structure PeerCredentials where
  pid : Option Nat
  uid : Option Nat
  gid : Option Nat
  deriving DecidableEq, Repr

inductive PeerTimer where
  | readyDeadline
  | heartbeatTimer
  | heartbeatDeadline
  | readDeadline
  | writeDeadline
  deriving DecidableEq, Repr

/-- The `asio::async_read` a peer has outstanding. -/
inductive PendingRead where
  | header
  | body (size : Nat)
  deriving DecidableEq, Repr

def PendingRead.size : PendingRead → Nat
  | .header => headerSize
  | .body size => size

inductive Signal where
  | ready
  | received (buffer : Bytes)
  | requestReceived (requestId : UInt64) (buffer : Bytes)
  | responseReceived (requestId : UInt64) (buffer : Bytes)
  | healthCheckResponseReceived
  | errorOccurred (errorCode : ErrorCode)
  | closed
  deriving DecidableEq, Repr

/-- The handlers of one peer.  A read handler carries the bytes transferred into
its buffer, a timer handler the serial number of its wait, and the handler of
`async_close` whether it was given a completion. -/
inductive PeerHandler where
  | start
  | close (completion : Bool)
  | pushFrame (frame : Bytes)
  | timer (name : PeerTimer) (wait : Nat) (errorCode : ErrorCode)
  | readHeader (errorCode : ErrorCode) (bytes : Bytes)
  | readBody (errorCode : ErrorCode) (bytes : Bytes)
  | write (errorCode : ErrorCode)
  deriving DecidableEq, Repr

structure Peer where
  isOpen : Bool := true
  closedOnExecutor : Bool := false
  ready : Bool := false
  closeAfterWrite : Bool := false
  /-- The serial number of each timer's outstanding wait. -/
  waits : PeerTimer → Option Nat := fun _ => none
  nextWait : Nat := 0
  reading : Option PendingRead := none
  /-- The frame of the outstanding `asio::async_write`. -/
  writing : Option Bytes := none
  readBody : Bytes := []
  writeQueue : List Bytes := []

/-- No operation holds the peer: no timer wait, read or write is outstanding. -/
def Peer.idle (peer : Peer) : Bool :=
  [PeerTimer.readyDeadline, .heartbeatTimer, .heartbeatDeadline, .readDeadline,
    .writeDeadline].all (fun name => (peer.waits name).isNone) &&
    peer.reading.isNone && peer.writing.isNone

/-- A handler in progress.  `fault` records a subscript out of range or a pop
from an empty queue, which the source leaves undefined. -/
structure PeerTurn where
  peer : Peer
  posted : List PeerHandler := []
  signals : List Signal := []
  /-- The completion given to `async_close` is called. -/
  completed : Bool := false
  fault : Bool := false

namespace PeerTurn

def post (handler : PeerHandler) (turn : PeerTurn) : PeerTurn :=
  { turn with posted := turn.posted ++ [handler] }

def enqueue (signal : Signal) (turn : PeerTurn) : PeerTurn :=
  { turn with signals := turn.signals ++ [signal] }

/-- `timer.cancel()` -/
def cancel (name : PeerTimer) (turn : PeerTurn) : PeerTurn :=
  { turn with
    peer := { turn.peer with waits := Function.update turn.peer.waits name none }
    posted :=
      turn.posted ++
        (turn.peer.waits name).toList.map fun wait => .timer name wait .operationAborted }

/-- `timer.expires_after(..)`, which cancels the outstanding wait, and
`timer.async_wait(..)`. -/
def asyncWait (name : PeerTimer) (turn : PeerTurn) : PeerTurn :=
  let turn := turn.cancel name
  { turn with
    peer :=
      { turn.peer with
        waits := Function.update turn.peer.waits name (some turn.peer.nextWait)
        nextWait := turn.peer.nextWait + 1 } }

/-- The completion handler of an outstanding read. -/
def readHandler (operation : PendingRead) (errorCode : ErrorCode) (bytes : Bytes) : PeerHandler :=
  match operation with
  | .header => .readHeader errorCode bytes
  | .body _ => .readBody errorCode bytes

/-- `asio::async_read`; on a closed socket it completes at once. -/
def asyncRead (operation : PendingRead) (turn : PeerTurn) : PeerTurn :=
  if turn.peer.isOpen then
    { turn with peer := { turn.peer with reading := some operation } }
  else
    turn.post (readHandler operation .badDescriptor [])

/-- `socket_.cancel()` and `socket_.close()` -/
def abortSocket (turn : PeerTurn) : PeerTurn :=
  { turn with
    peer := { turn.peer with isOpen := false, reading := none, writing := none }
    posted :=
      turn.posted ++
        (turn.peer.reading.toList.map fun operation =>
          readHandler operation .operationAborted []) ++
        turn.peer.writing.toList.map fun _ => .write .operationAborted }

def closeSocket (turn : PeerTurn) : PeerTurn :=
  { turn with peer := { turn.peer with closedOnExecutor := true } }
    |>.cancel .readyDeadline
    |>.cancel .heartbeatTimer
    |>.cancel .heartbeatDeadline
    |>.cancel .readDeadline
    |>.cancel .writeDeadline
    |>.abortSocket

def close (turn : PeerTurn) : PeerTurn :=
  let socketWasOpen := turn.peer.isOpen
  let turn := turn.closeSocket
  if socketWasOpen then turn.enqueue .closed else turn

def handleError (errorCode : ErrorCode) (turn : PeerTurn) : PeerTurn :=
  if errorCode = .operationAborted then turn
  else (turn.enqueue (.errorOccurred errorCode)).close

def startReadyDeadline (turn : PeerTurn) : PeerTurn := turn.asyncWait .readyDeadline

def startHeartbeatTimer (turn : PeerTurn) : PeerTurn := turn.asyncWait .heartbeatTimer

def refreshHeartbeatDeadline (turn : PeerTurn) : PeerTurn := turn.asyncWait .heartbeatDeadline

def startReadDeadline (turn : PeerTurn) : PeerTurn := turn.asyncWait .readDeadline

def ensureReady (turn : PeerTurn) : PeerTurn :=
  if turn.peer.ready then turn
  else
    { turn with peer := { turn.peer with ready := true } }
      |>.cancel .readyDeadline
      |>.enqueue .ready

def readHeader (turn : PeerTurn) : PeerTurn :=
  if turn.peer.isOpen then turn.startReadDeadline.asyncRead .header else turn

def readBody (turn : PeerTurn) : PeerTurn :=
  turn.startReadDeadline.asyncRead (.body turn.peer.readBody.length)

def write (turn : PeerTurn) : PeerTurn :=
  match turn.peer.writeQueue with
  | [] => turn
  | front :: _ =>
      if turn.peer.isOpen then
        let turn := turn.asyncWait .writeDeadline
        { turn with peer := { turn.peer with writing := some front } }
      else turn

end PeerTurn

section

variable (options : CommonOptions)

def validOutgoingFrame (frame : Bytes) : Bool :=
  if frame.length < headerSize + typeSize then false
  else
    let bodySize := (decodeUint32 (frame.take headerSize)).toNat
    if frame.length ≠ sizeT (headerSize + bodySize) ∨ bodySize < typeSize then false
    else
      match MessageType.ofByte? (frame.getD headerSize 0) with
      | some .request | some .response =>
          decide (typeSize + requestIdSize ≤ bodySize) &&
            decide (bodySize ≤ sizeT (options.maxMessageSize + typeSize + requestIdSize))
      | some _ => decide (bodySize ≤ sizeT (options.maxMessageSize + typeSize))
      | none => false

namespace PeerTurn

def pushFrame (frame : Bytes) (turn : PeerTurn) : PeerTurn :=
  if turn.peer.isOpen then
    if !validOutgoingFrame options frame ∨
        turn.peer.writeQueue.length ≥ options.maxSendQueueSize then
      turn.handleError .noBufferSpace
    else
      let wasEmpty := turn.peer.writeQueue.isEmpty
      let turn :=
        { turn with peer := { turn.peer with writeQueue := turn.peer.writeQueue ++ [frame] } }
      if wasEmpty then turn.write else turn
  else turn

/-- The `user_data` case of `read_body`. -/
def readUserData (turn : PeerTurn) : PeerTurn :=
  let turn := turn.ensureReady
  let body := turn.peer.readBody
  if body.length > sizeT (options.maxMessageSize + typeSize) then turn.handleError .messageSize
  else (turn.enqueue (.received (body.drop typeSize))).readHeader

/-- The `request` and `response` cases of `read_body`, which share a body. -/
def readRequestResponse (signal : UInt64 → Bytes → Signal) (turn : PeerTurn) : PeerTurn :=
  let turn := turn.ensureReady
  let body := turn.peer.readBody
  if body.length < typeSize + requestIdSize ∨
      body.length > sizeT (options.maxMessageSize + typeSize + requestIdSize) then
    turn.handleError .messageSize
  else
    match decodeUint64? body typeSize with
    | none => { turn with fault := true }
    | some requestId =>
        (turn.enqueue (signal requestId (body.drop (typeSize + requestIdSize)))).readHeader

/-- The `health_check` case of `read_body`, after which reading stops. -/
def readHealthCheck (turn : PeerTurn) : PeerTurn :=
  if turn.peer.ready then turn.handleError .operationNotSupported
  else
    { turn with peer := { turn.peer with closeAfterWrite := true } }
      |>.pushFrame options makeHealthCheckResponseFrame

/-- The `switch` of `read_body`, with the `read_header()` that follows it. -/
def readMessage (turn : PeerTurn) : PeerTurn :=
  match turn.peer.readBody with
  | [] => { turn with fault := true }
  | type :: _ =>
      match MessageType.ofByte? type with
      | some .heartbeat => turn.readHeader
      | some .userData => turn.readUserData options
      | some .request => turn.readRequestResponse options .requestReceived
      | some .response => turn.readRequestResponse options .responseReceived
      | some .healthCheck => turn.readHealthCheck options
      | some .healthCheckResponse => (turn.enqueue .healthCheckResponseReceived).readHeader
      | none => turn.handleError .invalidArgument

def onReadHeader (errorCode : ErrorCode) (bytes : Bytes) (turn : PeerTurn) : PeerTurn :=
  let turn := turn.cancel .readDeadline
  if errorCode ≠ .success then
    if errorCode = .eof ∧ bytes.length = 0 then turn.close else turn.handleError errorCode
  else if bytes.length ≠ headerSize then turn.handleError .messageSize
  else
    let bodySize := (decodeUint32 bytes).toNat
    if bodySize < typeSize ∨
        bodySize > sizeT (options.maxMessageSize + typeSize + requestIdSize) then
      turn.handleError .messageSize
    else
      -- `resize` keeps a prefix of the old body and pads with zeros
      { turn with peer := { turn.peer with readBody := turn.peer.readBody.takeD bodySize 0 } }
        |>.readBody

def onReadBody (errorCode : ErrorCode) (bytes : Bytes) (turn : PeerTurn) : PeerTurn :=
  let turn := turn.cancel .readDeadline
  if errorCode ≠ .success then turn.handleError errorCode
  else if bytes.length ≠ turn.peer.readBody.length then turn.handleError .messageSize
  else
    { turn with peer := { turn.peer with readBody := bytes } }
      |>.refreshHeartbeatDeadline
      |>.readMessage options

def onWrite (errorCode : ErrorCode) (turn : PeerTurn) : PeerTurn :=
  let turn := turn.cancel .writeDeadline
  if errorCode ≠ .success then turn.handleError errorCode
  else
    match turn.peer.writeQueue with
    | [] => { turn with fault := true }
    | _ :: rest =>
        let turn := { turn with peer := { turn.peer with writeQueue := rest } }
        if rest.isEmpty && turn.peer.closeAfterWrite then turn.close else turn.write

def onTimer (name : PeerTimer) (turn : PeerTurn) : PeerTurn :=
  match name with
  | .readyDeadline => turn.ensureReady
  | .heartbeatTimer =>
      if turn.peer.isOpen then
        (turn.pushFrame options makeHeartbeatFrame).startHeartbeatTimer
      else turn
  | .heartbeatDeadline | .readDeadline | .writeDeadline => turn.handleError .timedOut

/-- Run one handler of the peer. -/
def run (handler : PeerHandler) (turn : PeerTurn) : PeerTurn :=
  match handler with
  | .start =>
      turn.startReadyDeadline.startHeartbeatTimer.refreshHeartbeatDeadline.readHeader
  | .close completion =>
      let turn := turn.close
      { turn with completed := completion }
  | .pushFrame frame => turn.pushFrame options frame
  | .timer name _ errorCode => if errorCode = .success then turn.onTimer options name else turn
  | .readHeader errorCode bytes => turn.onReadHeader options errorCode bytes
  | .readBody errorCode bytes => turn.onReadBody options errorCode bytes
  | .write errorCode => turn.onWrite errorCode

end PeerTurn

end

/-! ## Completion of outstanding operations -/

inductive PeerCompletion where
  | timer (name : PeerTimer)
  | read (errorCode : ErrorCode) (bytes : Bytes)
  | write (errorCode : ErrorCode)
  deriving DecidableEq, Repr

/-- An outstanding operation completes and its handler becomes ready to run.  A
read that succeeds has filled its buffer, one that fails has not. -/
def Peer.complete? (peer : Peer) : PeerCompletion → Option (Peer × PeerHandler)
  | .timer name =>
      match peer.waits name with
      | none => none
      | some wait =>
          some ({ peer with waits := Function.update peer.waits name none },
            .timer name wait .success)
  | .read errorCode bytes =>
      match peer.reading with
      | none => none
      | some operation =>
          if errorCode = .operationAborted then none
          else if (errorCode = .success ∧ bytes.length = operation.size) ∨
              (errorCode ≠ .success ∧ bytes.length < operation.size) then
            some ({ peer with reading := none }, PeerTurn.readHandler operation errorCode bytes)
          else none
  | .write errorCode =>
      match peer.writing with
      | none => none
      | some _ =>
          if errorCode = .operationAborted then none
          else some ({ peer with writing := none }, .write errorCode)

/-- Completing an operation leaves the flags and the buffers alone. -/
theorem Peer.complete?_keeps {peer after : Peer} {completion : PeerCompletion}
    {handler : PeerHandler} (completes : peer.complete? completion = some (after, handler)) :
    after.isOpen = peer.isOpen ∧ after.ready = peer.ready ∧
      ∀ called, handler ≠ .close called := by
  cases completion with
  | timer name =>
      simp only [complete?] at completes
      split at completes
      · cases completes
      · cases completes
        exact ⟨rfl, rfl, by simp⟩
  | read errorCode bytes =>
      simp only [complete?] at completes
      split at completes
      · cases completes
      case h_2 operation _ =>
        split at completes
        · cases completes
        · split at completes
          · cases completes
            refine ⟨rfl, rfl, fun called => ?_⟩
            cases operation <;> simp [PeerTurn.readHandler]
          · cases completes
  | write errorCode =>
      simp only [complete?] at completes
      split at completes
      · cases completes
      · split at completes
        · cases completes
        · cases completes
          exact ⟨rfl, rfl, by simp⟩

end UnixDomainStream
