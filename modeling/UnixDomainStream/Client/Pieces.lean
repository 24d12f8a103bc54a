import UnixDomainStream.Library.Pieces
import UnixDomainStream.Client.Program

/-!
# The pieces of a client's handlers

Every handler is a row of a few pieces.  The functions of the client are taken apart here
once; what a property says about each piece, it says about every handler.
-/

namespace UnixDomainStream.Client

open Library
open Protocol (Bytes makeRequestFrame)

/-- The handler may give the peer up. -/
def Handler.drops : Handler → Bool
  | .stop => true
  | .invalidateConnection _ => true
  | .closed _ _ => true
  | .requestTimer _ => true
  | _ => false

namespace Turn

/-- A piece that fails requests, or closes a connection without a word. -/
inductive QuietPiece (handler : Handler) : Turn → Turn → Prop where
  | fail {turn : Turn} {call : RequestManager Nat Nat → RequestTurn Nat Nat}
      {address : Nat × PendingRequest Nat → Bool} {errorCode : ErrorCode}
      (completes : call turn.io.requestManager =
        turn.io.requestManager.completeWhere address errorCode none)
      (error : errorCode ≠ .success) : QuietPiece handler turn (turn.request call)
  | closeSocket (attempt : Nat) (turn : Turn) : QuietPiece handler turn (turn.closeSocket attempt)
  | disconnect (turn : Turn) :
      QuietPiece handler turn { turn with io := { turn.io with connectingSocket := none } }
  | push (attempt : Nat) (frame : Bytes) (turn : Turn) :
      QuietPiece handler turn (turn.post (.peer attempt (.pushFrame frame)))
  | release {attempt : Nat} {turn : Turn} (own : handler.drops = true)
      (completed : turn.io.requestManager.pendingRequests.entries = []) :
      QuietPiece handler turn
        { turn.post (.peer attempt (.close false)) with io := { turn.io with peer := none } }
  | dropPeer {turn : Turn} (own : handler.drops = true)
      (completed : turn.io.requestManager.pendingRequests.entries = []) :
      QuietPiece handler turn { turn with io := { turn.io with peer := none } }

/-- The notifications that the handlers enqueue, with the tokens of the handlers; only a
timeout brings the token that was current when its request was sent. -/
inductive Tells (options : CommonOptions) (io : Io) : Handler → Nat → Notice → Prop where
  | connectFailed (connect : Connect) (errorCode : ErrorCode) :
      Tells options io (.connectCompleted connect (.error errorCode)) connect.token
        (.connectFailed connect.attempt errorCode)
  | verifyPeer (connect : Connect) (credentials : PeerCredentials) :
      Tells options io (.connectCompleted connect (.socket credentials)) connect.token
        (.verifyPeer connect.attempt credentials connect.token)
  | unverified (attempt : Nat) (credentials : PeerCredentials) (verified : Bool) (token : Nat) :
      Tells options io (.handleConnectedSocket attempt credentials verified token) token
        (.peerVerificationFailed attempt credentials)
  | invalidated (token : Nat) :
      Tells options io (.invalidateConnection token) token .scheduleReconnect
  | connected (attempt : Nat) (credentials : PeerCredentials) (token : Nat) :
      Tells options io (.connected attempt credentials token) token
        (.connected attempt credentials)
  | received (attempt : Nat) (buffer : Bytes) (token : Nat) :
      Tells options io (.received attempt buffer token) token (.received attempt buffer)
  | requestReceived (attempt : Nat) (requestId : UInt64) (buffer : Bytes) (token : Nat) :
      Tells options io (.requestReceived attempt requestId buffer token) token
        (.requestReceived attempt requestId buffer)
  | errorOccurred (attempt : Nat) (errorCode : ErrorCode) (token : Nat) :
      Tells options io (.errorOccurred attempt errorCode token) token
        (.errorOccurred attempt errorCode)
  | closed (attempt token : Nat) :
      Tells options io (.closed attempt token) token (.closed attempt)
  | timedOut {timer : RequestTimer Nat} {token attempt : Nat}
      (called : (io.requestManager.onTimer timer).2 = some token)
      (enabled : options.invalidateConnectionOnRequestError = true)
      (current : io.peer = some attempt) :
      Tells options io (.requestTimer timer) token (.closed attempt)

/-- A piece of a handler that was started in the given turn, with what led to it. -/
inductive Piece (options : CommonOptions) (scope : NotificationScope) (handler : Handler)
    (start : Turn) : Turn → Turn → Prop where
  | quiet {before after : Turn} (piece : QuietPiece handler before after) :
      Piece options scope handler start before after
  | notify {turn : Turn} {token : Nat} {notice : Notice}
      (told : Tells options start.io handler token notice) :
      Piece options scope handler start turn (turn.enqueue (.notify token notice))
  | respond {turn : Turn} {attempt : Nat} {requestId : UInt64} {buffer : Bytes}
      (own : handler = .responseReceived attempt requestId buffer)
      (current : turn.io.peer = some attempt) :
      Piece options scope handler start turn
        (turn.request (·.complete requestId.toNat .success (some buffer)))
  | report {turn : Turn} {attempt token : Nat} {errorCode : ErrorCode}
      (own : handler = .errorOccurred attempt errorCode token) :
      Piece options scope handler start turn (turn.request (·.completeAll errorCode))
  | refuse {call : Nat} {data : Bytes} (own : handler = .request call data) :
      Piece options scope handler start start
        (start.enqueue (.requestCallback call .notConnected none))
  | send {call attempt : Nat} {data : Bytes} (own : handler = .request call data)
      (current : start.io.peer = some attempt) :
      Piece options scope handler start start
        (({ start with io := { start.io with
            requestManager := start.io.requestManager.add none call (some scope.capture) } } :
          Turn)
          |>.post (.peer attempt (.pushFrame
            (makeRequestFrame (UInt64.ofNat start.io.requestManager.nextRequestId) data)))
          |>.emit (.requestSent call start.io.requestManager.nextRequestId attempt))
  | speak {attempt : Nat} {spoken : PeerHandler} {connection : Connection} {result : PeerTurn}
      (own : handler = .peer attempt spoken)
      (alive : start.io.connections attempt = some connection)
      (ran : PeerTurn.run options spoken { peer := connection.peer } = result) :
      Piece options scope handler start start
        { start with
          io := { start.io with
            connections := Function.update start.io.connections attempt
              (some { connection with peer := result.peer }) }
          posts := start.posts ++ result.posted.map (.peer attempt)
          jobs := start.jobs ++ result.signals.map (.signal attempt connection.token)
          events := start.events ++ framesRead attempt spoken }
  | connectFailed {token : Nat} (errorCode : ErrorCode) (own : handler = .connect token)
      (current : scope.isCurrent token = true) (unconnecting : start.io.connectingSocket = none)
      (unconnected : start.io.peer = none) :
      Piece options scope handler start start
        (({ start with io := { start.io with nextAttempt := start.io.nextAttempt + 1 } } :
          Turn).enqueue (.notify token (.connectFailed (start.io.nextAttempt + 1) errorCode)))
  | connect {token : Nat} (own : handler = .connect token)
      (current : scope.isCurrent token = true) (unconnecting : start.io.connectingSocket = none)
      (unconnected : start.io.peer = none) :
      Piece options scope handler start start
        { start with io := { start.io with
          nextAttempt := start.io.nextAttempt + 1
          connectingSocket := some (start.io.nextAttempt + 1)
          connects := start.io.connects ++ [⟨start.io.nextAttempt + 1, token⟩] } }
  | establish {attempt token : Nat} {credentials : PeerCredentials}
      (own : handler = .handleConnectedSocket attempt credentials true token)
      (current : scope.isCurrent token = true)
      (connecting : start.io.connectingSocket = some attempt) :
      Piece options scope handler start start
        (({ start with io := { start.io with
            connectingSocket := none
            peer := some attempt
            connections := Function.update start.io.connections attempt
              (some { peer := {}, token }) } } : Turn)
          |>.post (.peer attempt .start)
          |>.post (.connected attempt credentials token))

abbrev QuietPieces (handler : Handler) : Turn → Turn → Prop :=
  Library.Pieces (QuietPiece handler)

abbrev Pieces (options : CommonOptions) (scope : NotificationScope) (handler : Handler)
    (start : Turn) : Turn → Turn → Prop :=
  Library.Pieces (Piece options scope handler start)

variable {options : CommonOptions} {scope : NotificationScope} {handler : Handler}
  {start before after turn : Turn}

theorem QuietPiece.pieces (piece : QuietPiece handler before after) :
    QuietPieces handler before after := .single piece

theorem QuietPieces.pieces (pieces : QuietPieces handler before after) :
    Pieces options scope handler start before after :=
  pieces.lift id fun _ _ => .quiet

/-- No request is pending once all are completed. -/
theorem pending_completeAll (errorCode : ErrorCode) (turn : Turn) :
    (turn.request (·.completeAll errorCode)).io.requestManager.pendingRequests.entries = [] :=
  List.eq_nil_iff_forall_not_mem.mpr fun request member => by
    simp [Turn.request, RequestManager.completeAll, RequestManager.completeWhere] at member

theorem closeConnectingSocket_pieces (handler : Handler) (turn : Turn) :
    QuietPieces handler turn turn.closeConnectingSocket := by
  unfold closeConnectingSocket
  split
  · exact .refl
  · exact (QuietPiece.closeSocket _ turn).pieces.tail (.disconnect _)

theorem closePeer_pieces (own : handler.drops = true) {errorCode : ErrorCode}
    (error : errorCode ≠ .success) (turn : Turn) :
    QuietPieces handler turn (turn.closePeer errorCode) := by
  unfold closePeer
  split
  · exact .refl
  · have failed : QuietPieces handler turn (turn.request (·.completeAll errorCode)) :=
      .single (.fail rfl error)
    exact failed.tail (.release own (pending_completeAll errorCode turn))

/-- The work of both cleanup handlers. -/
theorem close_pieces (own : handler.drops = true) (turn : Turn) :
    QuietPieces handler turn (turn.closeConnectingSocket.closePeer .operationAborted) :=
  (closeConnectingSocket_pieces handler turn).trans (closePeer_pieces own (by decide) _)

theorem toPeer_pieces (frame : Bytes) (turn : Turn) :
    QuietPieces handler turn (turn.toPeer (.pushFrame frame)) := by
  unfold toPeer
  split
  · exact .refl
  · exact (QuietPiece.push _ frame turn).pieces

theorem onConnect_pieces {token : Nat} (own : handler = .connect token) (endpoint : Endpoint)
    (start : Turn) :
    Pieces options scope handler start start (start.onConnect scope token endpoint) := by
  unfold onConnect
  split
  · exact .refl
  case isFalse free =>
    simp only [Bool.or_eq_true, not_or, Bool.not_eq_true', Bool.not_eq_false, Bool.not_eq_true,
      Option.isSome_eq_false_iff, Option.isNone_iff_eq_none] at free
    cases endpoint with
    | failed errorCode => exact .single (.connectFailed errorCode own free.1.1 free.1.2 free.2)
    | constructed => exact .single (.connect own free.1.1 free.1.2 free.2)

theorem onConnectCompleted_pieces {connect : Connect} {result : ConnectResult}
    (own : handler = .connectCompleted connect result) (turn : Turn) :
    Pieces options scope handler start turn (turn.onConnectCompleted scope connect result) := by
  subst own
  unfold onConnectCompleted
  split
  · exact .single (.quiet (.closeSocket _ _))
  · cases result with
    | error errorCode =>
        have freed : QuietPieces (.connectCompleted connect (.error errorCode)) turn
            { turn with io := { turn.io with connectingSocket := none } } :=
          .single (.disconnect turn)
        exact freed.pieces.tail (.notify (.connectFailed connect errorCode))
    | socket credentials => exact .single (.notify (.verifyPeer connect credentials))

theorem handleConnectedSocket_pieces {attempt token : Nat} {credentials : PeerCredentials}
    {verified : Bool}
    (own : handler = .handleConnectedSocket attempt credentials verified token) (start : Turn) :
    Pieces options scope handler start start
      (start.handleConnectedSocket scope attempt credentials verified token) := by
  subst own
  unfold handleConnectedSocket
  split
  · exact .single (.quiet (.closeSocket _ _))
  case isFalse connecting =>
    dsimp only
    split
    · have freed : QuietPieces (.handleConnectedSocket attempt credentials verified token) start
          { start with io := { start.io with connectingSocket := none } } :=
        .single (.disconnect start)
      exact QuietPieces.pieces (freed.tail (.closeSocket _ _))
    case isFalse current =>
      cases verified with
      | false =>
          have freed : QuietPieces (.handleConnectedSocket attempt credentials false token) start
              { start with io := { start.io with connectingSocket := none } } :=
            .single (.disconnect start)
          exact (QuietPieces.pieces (freed.tail (.closeSocket _ _))).tail
            (.notify (.unverified attempt credentials false token))
      | true =>
          exact .single (.establish rfl (by simpa using current) (by simpa using connecting))

theorem sendRequest_pieces {call : Nat} {data : Bytes} (own : handler = .request call data)
    (start : Turn) :
    Pieces options scope handler start start (start.sendRequest scope call data) := by
  unfold sendRequest
  split
  case h_1 => exact .single (.refuse own)
  case h_2 attempt current => exact .single (.send own current)

theorem runPeer_pieces {attempt : Nat} {spoken : PeerHandler}
    (own : handler = .peer attempt spoken) (start : Turn) :
    Pieces options scope handler start start (start.runPeer options attempt spoken) := by
  unfold runPeer
  split
  case h_1 => exact .refl
  case h_2 connection alive => exact .single (.speak own alive rfl)

theorem ifCurrent_pieces {attempt : Nat} {work : Turn → Turn}
    (worked : turn.io.peer = some attempt →
      Pieces options scope handler start turn (work turn)) :
    Pieces options scope handler start turn (turn.ifCurrent attempt work) := by
  unfold ifCurrent
  split
  case isTrue current => exact worked current
  case isFalse => exact .refl

theorem onClosed_pieces {attempt token : Nat} (own : handler = .closed attempt token)
    (turn : Turn) : Pieces options scope handler start turn (turn.onClosed attempt token) := by
  subst own
  have failed : QuietPieces (.closed attempt token) turn
      (turn.request (·.completeAll .connectionReset)) := .single (.fail rfl (by decide))
  have dropped := failed.tail (.dropPeer rfl (pending_completeAll .connectionReset turn))
  exact (QuietPieces.pieces dropped).tail (.notify (.closed attempt token))

theorem onRequestTimer_pieces {timer : RequestTimer Nat} (own : handler = .requestTimer timer)
    (start : Turn) :
    Pieces options scope handler start start (start.onRequestTimer options timer) := by
  subst own
  have expired : QuietPieces (.requestTimer timer) start
      (start.request fun manager => (manager.onTimer timer).1) :=
    .single (.fail (RequestManager.onTimer_eq timer _) (by decide))
  unfold onRequestTimer
  dsimp only
  split
  · exact expired.pieces
  case h_2 token called =>
    split
    case isTrue enabled =>
      split
      · exact expired.pieces
      case h_2 attempt current =>
        let completed := start.request fun manager => (manager.onTimer timer).1
        have closed : QuietPieces (.requestTimer timer) completed
            (completed.closePeer .connectionReset) := closePeer_pieces rfl (by decide) completed
        exact (QuietPieces.pieces (expired.trans closed)).tail
          (.notify (.timedOut called enabled current))
    case isFalse => exact expired.pieces

theorem Piece.events (piece : Piece options scope handler start before after) :
    before.events <+: after.events := by
  cases piece with
  | quiet piece => cases piece <;> exact List.prefix_rfl
  | send own current => exact List.prefix_append ..
  | speak own alive ran => exact List.prefix_append ..
  | _ => exact List.prefix_rfl

/-- Every handler is a row of pieces. -/
theorem run_pieces (options : CommonOptions) (scope : NotificationScope) (endpoint : Endpoint)
    (handler : Handler) (start : Turn) :
    Pieces options scope handler start start (start.run options scope endpoint handler) := by
  cases handler with
  | connect token => exact onConnect_pieces rfl endpoint start
  | connectCompleted connect result => exact onConnectCompleted_pieces rfl start
  | handleConnectedSocket attempt credentials verified token =>
      exact handleConnectedSocket_pieces rfl start
  | stop => exact (close_pieces rfl start).pieces
  | invalidateConnection token =>
      exact (close_pieces rfl start).pieces.tail (.notify (.invalidated token))
  | peer attempt spoken => exact runPeer_pieces rfl start
  | connected attempt credentials token =>
      exact ifCurrent_pieces fun _ => .single (.notify (.connected attempt credentials token))
  | received attempt buffer token =>
      exact ifCurrent_pieces fun _ => .single (.notify (.received attempt buffer token))
  | requestReceived attempt requestId buffer token =>
      exact ifCurrent_pieces fun _ =>
        .single (.notify (.requestReceived attempt requestId buffer token))
  | responseReceived attempt requestId buffer =>
      exact ifCurrent_pieces fun current => .single (.respond rfl current)
  | errorOccurred attempt errorCode token =>
      have reported : Pieces options scope (.errorOccurred attempt errorCode token) start start
          (start.request (·.completeAll errorCode)) := .single (.report rfl)
      show Pieces options scope _ start start (start.ifCurrent attempt fun turn =>
        (turn.request (·.completeAll errorCode)).enqueue
          (.notify token (.errorOccurred attempt errorCode)))
      exact ifCurrent_pieces fun _ =>
        reported.tail (.notify (.errorOccurred attempt errorCode token))
  | closed attempt token => exact ifCurrent_pieces fun _ => onClosed_pieces rfl start
  | send data => exact (toPeer_pieces _ start).pieces
  | respond requestId data => exact (toPeer_pieces _ start).pieces
  | request call data => exact sendRequest_pieces rfl start
  | requestTimer timer => exact onRequestTimer_pieces rfl start

end Turn

end UnixDomainStream.Client
