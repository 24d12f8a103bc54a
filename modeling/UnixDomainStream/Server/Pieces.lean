import UnixDomainStream.Library.Pieces
import UnixDomainStream.Server.Internal

/-!
# The pieces of a server's handlers

Every handler is a row of a few pieces.  Some of them concern the acceptor or the probes,
the others an accepted peer or the requests.  The functions of the server are taken apart
here once; what a property says about each piece, it says about every handler.
-/

namespace UnixDomainStream.Server

open Library
open Protocol (Bytes)

/-- The handler starts a probe or works for one that has connected. -/
def Handler.probes : Handler → Bool
  | .socketPathHealthCheck _ => true
  | .healthCheckConnect _ _ => true
  | .peer (.probe _) _ => true
  | _ => false

/-- The handler is about an accepted peer or about requests. -/
def Handler.serves : Handler → Bool
  | .peer (.accepted _) _ => true
  | .send _ _ => true
  | .respond _ _ _ => true
  | .request _ _ _ => true
  | .closePeer _ => true
  | .requestTimer _ => true
  | .responseReceived _ _ _ => true
  | .errorOccurred _ _ => true
  | .closed _ => true
  | _ => false

namespace Turn

/-- A piece about the acceptor or about giving up a probe. -/
inductive InternalPiece : Turn → Turn → Prop where
  | closeAcceptor (turn : Turn) : InternalPiece turn turn.closeAcceptor
  | cancelTimeout (timeout : Nat) (turn : Turn) :
      InternalPiece turn (turn.cancelTimeout timeout)
  | closeProbeSocket (timeout : Nat) (turn : Turn) :
      InternalPiece turn (turn.closeProbeSocket timeout)
  | closeSocketPathHealthCheckPeer (turn : Turn) :
      InternalPiece turn turn.closeSocketPathHealthCheckPeer
  | notify {token : Nat} {notice : Notice}
      (internal : (Job.notify token notice).isInternal = true) (turn : Turn) :
      InternalPiece turn (turn.enqueue (.notify token notice))
  | bind (attempt : Nat) (acceptor : Option Nat) (turn : Turn) :
      InternalPiece turn { turn with io := { turn.io with nextAttempt := attempt, acceptor } }
  | listen (accept : Accept) (turn : Turn) :
      InternalPiece turn { turn with io := { turn.io with
        accepts := turn.io.accepts ++ [accept] } }

/-- The handler may complete requests with success: those that a response answers. -/
inductive Succeeds (handler : Handler) (address : Nat × PendingRequest Nat → Bool)
    (data : Option Bytes) : Prop where
  | response {id : Nat} {requestId : UInt64} {buffer : Bytes}
      (own : handler = .responseReceived id requestId buffer) (same : data = some buffer)
      (addressed : ∀ request, address request = true →
        request.1 = requestId.toNat ∧ request.2.peerIdValue = some id)
  | error {id : Nat} (own : handler = .errorOccurred id .success)

/-- The handler closes the peer from this side. -/
inductive Closes (id : Nat) : Handler → Prop where
  | closePeer : Closes id (.closePeer id)
  | requestTimer {timer : RequestTimer Nat} (aimed : timer.timeoutCallback = some id) :
      Closes id (.requestTimer timer)

/-- A piece about an accepted peer or the requests.  A peer leaves the table after the
last of its requests. -/
inductive PeerPiece (options : CommonOptions) (scope : NotificationScope) (handler : Handler)
    (start : Turn) : Turn → Turn → Prop where
  | complete {turn : Turn} {call : RequestManager Nat Nat → RequestTurn Nat Nat}
      {address : Nat × PendingRequest Nat → Bool} {errorCode : ErrorCode} {data : Option Bytes}
      (completes : call turn.io.requestManager =
        turn.io.requestManager.completeWhere address errorCode data)
      (earned : errorCode = .success → Succeeds handler address data) :
      PeerPiece options scope handler start turn (turn.request call)
  | push (id : Nat) (frame : Bytes) (turn : Turn) :
      PeerPiece options scope handler start turn
        (turn.post (.peer (.accepted id) (.pushFrame frame)))
  | release {id : Nat} {turn : Turn} (own : Closes id handler) (listed : id ∈ turn.io.peers)
      (completed : ∀ request ∈ turn.io.requestManager.pendingRequests.entries,
        request.2.peerIdValue ≠ some id) :
      PeerPiece options scope handler start turn
        ((turn.post (.peer (.accepted id) (.close true))).erasePeer id)
  | erase {id : Nat} {turn : Turn} (own : handler = .closed id)
      (completed : ∀ request ∈ turn.io.requestManager.pendingRequests.entries,
        request.2.peerIdValue ≠ some id) :
      PeerPiece options scope handler start turn (turn.erasePeer id)
  | dismiss {turn : Turn} (own : handler = .stop)
      (completed : turn.io.requestManager.pendingRequests.entries = []) :
      PeerPiece options scope handler start turn
        { turn with
          io := { turn.io with peers := [] }
          posts := turn.posts ++
            turn.io.peers.map fun id => .peer (.accepted id) (.close false) }
  | send {call id : Nat} {data : Bytes} {turn : Turn} (own : handler = .request call id data)
      (listed : id ∈ turn.io.peers) :
      PeerPiece options scope handler start turn (turn.sendRequest call id data)
  | refuse {call id : Nat} {data : Bytes} {turn : Turn} (own : handler = .request call id data) :
      PeerPiece options scope handler start turn
        (turn.enqueue (.requestCallback call .notConnected none))
  | speak {id : Nat} {spoken : PeerHandler} (own : handler = .peer (.accepted id) spoken) :
      PeerPiece options scope handler start start
        (start.runPeer options (.accepted id) spoken)
  | create {accept : Accept} {credentials : PeerCredentials}
      (own : handler = .accept accept (.socket credentials))
      (current : scope.isCurrent accept.token = true) :
      PeerPiece options scope handler start start
        (({ start with
          io := { start.io with
            nextPeerId := start.io.nextPeerId + 1
            peers := start.io.peers ++ [start.io.nextPeerId + 1]
            connections := Function.update start.io.connections
              (.accepted (start.io.nextPeerId + 1))
              (some {
                peer := {}
                slots := .accepted (start.io.nextPeerId + 1) credentials accept.token
                named := rfl }) } } : Turn)
          |>.emit (.accepted (start.io.nextPeerId + 1) credentials)
          |>.post (.peer (.accepted (start.io.nextPeerId + 1)) .start))

inductive Piece (options : CommonOptions) (scope : NotificationScope) (handler : Handler)
    (start : Turn) (before after : Turn) : Prop where
  | internal (piece : InternalPiece before after)
  | peer (piece : PeerPiece options scope handler start before after)
  | probe (own : handler.probes = true) (internal : Internal before after)

abbrev InternalPieces : Turn → Turn → Prop := Library.Pieces InternalPiece

abbrev PeerPieces (options : CommonOptions) (scope : NotificationScope) (handler : Handler)
    (start : Turn) : Turn → Turn → Prop :=
  Library.Pieces (PeerPiece options scope handler start)

abbrev Pieces (options : CommonOptions) (scope : NotificationScope) (handler : Handler)
    (start : Turn) : Turn → Turn → Prop :=
  Library.Pieces (Piece options scope handler start)

variable {options : CommonOptions} {scope : NotificationScope} {handler : Handler}
  {start before after turn : Turn}

theorem InternalPiece.pieces (piece : InternalPiece before after) :
    InternalPieces before after := .single piece

theorem PeerPiece.pieces (piece : PeerPiece options scope handler start before after) :
    PeerPieces options scope handler start before after := .single piece

theorem InternalPieces.pieces (pieces : InternalPieces before after) :
    Pieces options scope handler start before after :=
  pieces.lift id fun _ _ => .internal

theorem PeerPieces.pieces (pieces : PeerPieces options scope handler start before after) :
    Pieces options scope handler start before after :=
  pieces.lift id fun _ _ => .peer

theorem PeerPiece.fail {call : RequestManager Nat Nat → RequestTurn Nat Nat}
    {address : Nat × PendingRequest Nat → Bool} {errorCode : ErrorCode} {data : Option Bytes}
    (completes : call turn.io.requestManager =
      turn.io.requestManager.completeWhere address errorCode data)
    (error : errorCode ≠ .success) :
    PeerPiece options scope handler start turn (turn.request call) :=
  .complete completes fun success => absurd success error

/-! ## The acceptor and the probes -/

theorem InternalPiece.internal (piece : InternalPiece before after) : Internal before after := by
  cases piece with
  | closeAcceptor => exact closeAcceptor_internal _
  | cancelTimeout timeout => exact cancelTimeout_internal timeout _
  | closeProbeSocket timeout => exact closeProbeSocket_internal timeout _
  | closeSocketPathHealthCheckPeer => exact closeSocketPathHealthCheckPeer_internal _
  | notify internal => exact enqueue_internal internal _
  | bind attempt acceptor =>
      exact ⟨rfl, rfl, rfl, fun _ => rfl, .refl _, .refl _, .refl _⟩
  | listen accept => exact ⟨rfl, rfl, rfl, fun _ => rfl, .refl _, .refl _, .refl _⟩

theorem InternalPieces.internal (pieces : InternalPieces before after) :
    Internal before after :=
  pieces.effect .refl .trans InternalPiece.internal

theorem handleBindFailed_pieces (attempt : Nat) (errorCode : ErrorCode) (token : Nat)
    (turn : Turn) : InternalPieces turn (turn.handleBindFailed attempt errorCode token) :=
  (InternalPiece.closeAcceptor turn).pieces.tail (.notify rfl _)

theorem accept_pieces (scope : NotificationScope) (token : Nat) (turn : Turn) :
    InternalPieces turn (turn.accept scope token) := by
  unfold accept
  split
  · exact .refl
  · split
    · exact (InternalPiece.listen _ turn).pieces
    · exact .refl

theorem onBind_pieces (scope : NotificationScope) (token : Nat) (outcome : BindOutcome)
    (turn : Turn) : InternalPieces turn (turn.onBind scope token outcome) := by
  unfold onBind
  split
  · exact .refl
  · dsimp only
    split
    · exact (InternalPiece.bind _ turn.io.acceptor turn).pieces.trans
        (handleBindFailed_pieces _ _ _ _)
    · exact (InternalPiece.bind _ _ turn).pieces.trans (handleBindFailed_pieces _ _ _ _)
    · exact ((InternalPiece.bind _ _ turn).pieces.tail (.notify rfl _)).trans
        (accept_pieces scope token _)

theorem handleSocketPathHealthCheckFailed_pieces (scope : NotificationScope) (probe : Probe)
    (turn : Turn) :
    InternalPieces turn (turn.handleSocketPathHealthCheckFailed scope probe) := by
  unfold handleSocketPathHealthCheckFailed
  split
  · exact .refl
  · exact ((InternalPiece.closeSocketPathHealthCheckPeer turn).pieces.tail
      (.closeAcceptor _)).tail (.notify rfl _)

theorem onHealthCheckTimeout_pieces (scope : NotificationScope) (probe : Probe)
    (errorCode : ErrorCode) (turn : Turn) :
    InternalPieces turn (turn.onHealthCheckTimeout scope probe errorCode) := by
  have closed := (InternalPiece.closeProbeSocket probe.timeout turn).pieces
  unfold onHealthCheckTimeout
  dsimp only
  split
  · exact closed.trans (handleSocketPathHealthCheckFailed_pieces scope probe _)
  · exact closed

theorem onHealthCheckResponse_pieces (scope : NotificationScope) (probe : Probe)
    (turn : Turn) : InternalPieces turn (turn.onHealthCheckResponse scope probe) := by
  unfold onHealthCheckResponse
  split
  · exact (InternalPiece.closeSocketPathHealthCheckPeer turn).pieces
  · exact .refl

theorem onSocketPathHealthCheck_internal (scope : NotificationScope) (token : Nat)
    (outcome : BindOutcome) (turn : Turn) :
    Internal turn (turn.onSocketPathHealthCheck scope token outcome) := by
  unfold onSocketPathHealthCheck
  split
  · exact .refl turn
  · split
    · exact .refl turn
    · dsimp only
      split
      · refine Internal.trans ?_ (handleSocketPathHealthCheckFailed_pieces scope _ _).internal
        exact ⟨rfl, rfl, rfl, fun _ => rfl, .refl _, .refl _, .refl _⟩
      · exact ⟨rfl, rfl, rfl, fun _ => rfl, .refl _, .refl _, .refl _⟩

theorem onHealthCheckConnect_internal (scope : NotificationScope) (probe : Probe)
    (errorCode : ErrorCode) (turn : Turn) :
    Internal turn (turn.onHealthCheckConnect scope probe errorCode) := by
  have cancelled := (InternalPiece.cancelTimeout probe.timeout turn).pieces
  unfold onHealthCheckConnect
  split
  · exact cancelled.internal
  · split
    · exact cancelled.internal.trans
        (handleSocketPathHealthCheckFailed_pieces scope probe _).internal
    · dsimp only
      refine Internal.trans ?_ ((post_internal rfl _).trans (post_internal rfl _))
      exact ⟨rfl, rfl, rfl, fun id => by simp, .refl _, .refl _, .refl _⟩

/-! ## The accepted peers and their requests -/

/-- The requests that a call leaves pending were pending before. -/
theorem mem_pending_request {call : RequestManager Nat Nat → RequestTurn Nat Nat}
    {address : Nat × PendingRequest Nat → Bool} {errorCode : ErrorCode} {data : Option Bytes}
    (completes : call turn.io.requestManager =
      turn.io.requestManager.completeWhere address errorCode data)
    {request : Nat × PendingRequest Nat} :
    request ∈ (turn.request call).io.requestManager.pendingRequests.entries ↔
      request ∈ turn.io.requestManager.pendingRequests.entries ∧ address request = false := by
  simp [Turn.request, completes, RequestManager.completeWhere]

theorem completePeer_completed (id : Nat) (errorCode : ErrorCode) (turn : Turn) :
    ∀ request ∈
      (turn.request (·.completePeer id errorCode)).io.requestManager.pendingRequests.entries,
      request.2.peerIdValue ≠ some id := by
  intro request pending same
  have other := ((mem_pending_request rfl).mp pending).2
  simp [same] at other

theorem closePeer_pieces {id : Nat} (own : Closes id handler) (turn : Turn) :
    PeerPieces options scope handler start turn (turn.closePeer id) := by
  unfold closePeer
  split
  case isTrue listed =>
    have failed : PeerPieces options scope handler start turn
        (turn.request (·.completePeer id .operationAborted)) :=
      .single (.fail rfl (by decide))
    exact failed.tail (.release own listed (completePeer_completed id .operationAborted turn))
  case isFalse => exact .refl

theorem closeAllPeers_pieces (own : handler = .stop) (turn : Turn) :
    PeerPieces options scope handler start turn turn.closeAllPeers := by
  have failed : PeerPieces options scope handler start turn
      (turn.request (·.completeAll .operationAborted)) :=
    .single (.fail rfl (by decide))
  refine failed.tail (.dismiss own (List.eq_nil_iff_forall_not_mem.mpr ?_))
  intro request pending
  cases ((mem_pending_request rfl).mp pending).2

theorem toPeer_pieces (id : Nat) (frame : Bytes) (turn : Turn) :
    PeerPieces options scope handler start turn (turn.toPeer id (.pushFrame frame)) := by
  unfold toPeer
  split
  · exact (PeerPiece.push id frame turn).pieces
  · exact .refl

theorem onRequest_pieces {call id : Nat} {data : Bytes} (own : handler = .request call id data)
    (turn : Turn) :
    PeerPieces options scope handler start turn (turn.onRequest call id data) := by
  unfold onRequest
  split
  case isTrue listed => exact (PeerPiece.send own listed).pieces
  case isFalse => exact (PeerPiece.refuse own).pieces

theorem onRequestTimer_pieces {timer : RequestTimer Nat} (own : handler = .requestTimer timer)
    (turn : Turn) :
    PeerPieces options scope handler start turn (turn.onRequestTimer options timer) := by
  have expired : PeerPieces options scope handler start turn
      (turn.request fun manager => (manager.onTimer timer).1) :=
    .single (.fail (RequestManager.onTimer_eq timer _) (by decide))
  unfold onRequestTimer
  dsimp only
  split
  · exact expired
  case h_2 id called =>
    have aimed := (RequestManager.onTimer_called called).2.1
    split
    · exact expired.trans (closePeer_pieces (own ▸ .requestTimer aimed) _)
    · exact expired

theorem onResponseReceived_pieces {id : Nat} {requestId : UInt64} {buffer : Bytes}
    (own : handler = .responseReceived id requestId buffer) (turn : Turn) :
    PeerPieces options scope handler start turn
      (turn.onResponseReceived id requestId buffer) := by
  unfold onResponseReceived
  split
  · refine (PeerPiece.complete (RequestManager.completeFrom_eq ..) fun _ =>
      .response own rfl fun request addressed => ?_).pieces
    simpa using addressed
  · exact .refl

theorem onClosed_pieces {id : Nat} (own : handler = .closed id) (turn : Turn) :
    PeerPieces options scope handler start turn (turn.onClosed id) := by
  have failed : PeerPieces options scope handler start turn
      (turn.request (·.completePeer id .connectionReset)) :=
    .single (.fail rfl (by decide))
  exact failed.tail (.erase own (completePeer_completed id .connectionReset turn))

theorem onAccept_pieces {accept : Accept} {result : AcceptResult}
    (own : handler = .accept accept result) (start : Turn) :
    Pieces options scope handler start start (start.onAccept scope accept result) := by
  unfold onAccept
  split
  · exact .refl
  case isFalse current =>
    cases result with
    | error errorCode =>
        dsimp only
        split
        · exact .refl
        · have closed : InternalPieces start start.closeAcceptor := .single (.closeAcceptor start)
          have told : InternalPieces start
              (start.closeAcceptor.enqueue (.notify accept.token (.closed accept.attempt))) :=
            closed.tail (.notify rfl _)
          exact told.pieces
    | socket credentials =>
        dsimp only [handleAcceptedSocket]
        split
        · exact .refl
        · refine Relation.ReflTransGen.trans ?_ (accept_pieces scope accept.token _).pieces
          exact (PeerPiece.create own (by simpa using current)).pieces.pieces

/-- A handler about an accepted peer or about requests consists of such pieces only. -/
theorem run_peerPieces (options : CommonOptions) (scope : NotificationScope)
    (outcome : BindOutcome) {handler : Handler} (serves : handler.serves = true)
    (start : Turn) :
    PeerPieces options scope handler start start (start.run options scope outcome handler) := by
  cases handler with
  | peer ref spoken =>
      cases ref with
      | accepted id => exact (PeerPiece.speak rfl).pieces
      | probe timeout => cases serves
  | send id data => exact toPeer_pieces id _ start
  | respond id requestId data => exact toPeer_pieces id _ start
  | request call id data => exact onRequest_pieces rfl start
  | closePeer id => exact closePeer_pieces .closePeer start
  | requestTimer timer => exact onRequestTimer_pieces rfl start
  | responseReceived id requestId buffer => exact onResponseReceived_pieces rfl start
  | errorOccurred id errorCode =>
      refine .single (.complete rfl fun success => ?_)
      subst success
      exact .error rfl
  | closed id => exact onClosed_pieces rfl start
  | _ => cases serves

/-- Events are only recorded, never taken back. -/
theorem PeerPiece.events (piece : PeerPiece options scope handler start before after) :
    before.events <+: after.events := by
  cases piece with
  | send own listed => exact List.prefix_append ..
  | create own current => exact List.prefix_append ..
  | speak own =>
      unfold runPeer
      split
      · exact List.prefix_rfl
      · exact List.prefix_append ..
  | _ => exact List.prefix_rfl

/-- For the accepted peers only their own pieces matter. -/
theorem Piece.sort (piece : Piece options scope handler start before after) :
    Internal before after ∨ PeerPiece options scope handler start before after := by
  cases piece with
  | internal piece => exact .inl piece.internal
  | peer piece => exact .inr piece
  | probe own internal => exact .inl internal

/-- Every handler is a row of pieces. -/
theorem run_pieces (options : CommonOptions) (scope : NotificationScope)
    (outcome : BindOutcome) (handler : Handler) (start : Turn) :
    Pieces options scope handler start start (start.run options scope outcome handler) := by
  cases handler with
  | bind token => exact (onBind_pieces scope token outcome start).pieces
  | stop =>
      have closed := (InternalPiece.closeAcceptor start).pieces
      refine (closed.pieces.trans (closeAllPeers_pieces rfl _).pieces).trans ?_
      exact (InternalPiece.closeSocketPathHealthCheckPeer _).pieces.pieces
  | accept accept result => exact onAccept_pieces rfl start
  | peer ref spoken =>
      cases ref with
      | accepted id => exact (run_peerPieces options scope outcome rfl start).pieces
      | probe timeout =>
          exact .single (.probe rfl (runPeer_probe_internal options timeout spoken start))
  | socketPathHealthCheck token =>
      exact .single (.probe rfl (onSocketPathHealthCheck_internal scope token outcome start))
  | healthCheckTimeout probe errorCode =>
      exact (onHealthCheckTimeout_pieces scope probe errorCode start).pieces
  | healthCheckConnect probe errorCode =>
      exact .single (.probe rfl (onHealthCheckConnect_internal scope probe errorCode start))
  | healthCheckResponse probe => exact (onHealthCheckResponse_pieces scope probe start).pieces
  | healthCheckFailed probe errorCode =>
      exact (handleSocketPathHealthCheckFailed_pieces scope probe start).pieces
  | _ => exact (run_peerPieces options scope outcome rfl start).pieces

end Turn

end UnixDomainStream.Server
