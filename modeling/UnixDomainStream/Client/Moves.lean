import UnixDomainStream.Client.Cleaning
import UnixDomainStream.Client.Tokens

/-!
# What a handler does to the connection of a client

Whatever a handler does, the client connects, is connected, or has neither; and where it
ends up with neither, a notification that leads to a reconnect has been enqueued, unless
a cleanup or a stale token was the cause.
-/

namespace UnixDomainStream.Client

open Library

/-- The handler is of the connect of the attempt, or decides about its socket. -/
def Handler.pursues (attempt : Nat) : Handler → Bool
  | .connectCompleted operation _ => operation.attempt == attempt
  | .handleConnectedSocket other _ _ _ => other == attempt
  | _ => false

/-- The job asks whether the attempt's socket may become the peer. -/
def Job.pursues (attempt : Nat) : Job → Bool
  | .notify _ (.verifyPeer other _ _) => other == attempt
  | _ => false

/-- The notification goes on to `schedule_reconnect()`. -/
def Notice.retries : Notice → Bool
  | .connectFailed _ _ | .peerVerificationFailed _ _ | .closed _ | .scheduleReconnect => true
  | _ => false

/-- The attempt is the one that the client connects or is connected with. -/
def Io.tracks (attempt : Nat) (io : Io) : Prop :=
  io.connectingSocket = some attempt ∨ io.peer = some attempt

/-- The client neither connects nor is connected. -/
def Io.free (io : Io) : Prop := io.connectingSocket = none ∧ io.peer = none

namespace Turn

/-- Where a handler has the token from with which it reports that it gave up. -/
inductive Warrant (scope : NotificationScope) (io : Io) (handler : Handler) (token : Nat) :
    Prop where
  | current (current : scope.isCurrent token = true)
  | stamped (attempt : Nat) (tracked : io.tracks attempt)
      (stamped : ∀ rule, handler.Stamped rule → rule attempt token)
  | timer (timer : RequestTimer Nat) (own : handler = .requestTimer timer)
      (called : (io.requestManager.onTimer timer).2 = some token)

inductive ConnectionMove (options : CommonOptions) (scope : NotificationScope)
    (handler : Handler) (io : Io) (turn : Turn) : Prop where
  | kept (connectingSocket : turn.io.connectingSocket = io.connectingSocket)
      (peer : turn.io.peer = io.peer)
      (inert : ∀ token, handler = .connect token → scope.isCurrent token = true → ¬ io.free)
      (unfired : ∀ timer token, handler = .requestTimer timer →
        (io.requestManager.onTimer timer).2 = some token →
        options.invalidateConnectionOnRequestError = true → io.peer = none)
      (pursued : scope.running = true → ∀ attempt, io.connectingSocket = some attempt →
        (∀ connect ∈ io.connects, connect.attempt = attempt → connect ∈ turn.io.connects) ∧
        (handler.pursues attempt = true → ∃ job ∈ turn.jobs, job.pursues attempt = true))
      (unclosed : ∀ attempt token, handler = .closed attempt token → io.peer ≠ some attempt)
      (uncleaned : handler.cleans = false)
  | began {token : Nat} (own : handler = .connect token) (current : scope.isCurrent token = true)
      (free : io.free) (connectingSocket : turn.io.connectingSocket = some (io.nextAttempt + 1))
      (peer : turn.io.peer = none)
      (connects : ⟨io.nextAttempt + 1, token⟩ ∈ turn.io.connects)
  | connected {attempt token : Nat} {credentials : PeerCredentials}
      (own : handler = .handleConnectedSocket attempt credentials true token)
      (current : scope.isCurrent token = true) (connecting : io.connectingSocket = some attempt)
      (connectingSocket : turn.io.connectingSocket = none) (peer : turn.io.peer = some attempt)
      (connection : turn.io.connections attempt = some { peer := {}, token })
  | reported (token : Nat) (notice : Notice) (warrant : Warrant scope io handler token)
      (retries : notice.retries = true) (told : .notify token notice ∈ turn.jobs)
      (free : turn.io.free)
  | discarded {attempt token : Nat} {credentials : PeerCredentials} {verified : Bool}
      (own : handler = .handleConnectedSocket attempt credentials verified token)
      (connecting : io.connectingSocket = some attempt) (stale : scope.isCurrent token = false)
      (free : turn.io.free)
  | cleaned (own : handler.cleans = true) (free : turn.io.free)
      (told : ∀ token, handler = .invalidateConnection token →
        .notify token .scheduleReconnect ∈ turn.jobs)

section

variable {options : CommonOptions} {scope : NotificationScope} {io : Io}

/-- A handler that is about something else. -/
theorem ConnectionMove.of_aside {handler : Handler} {turn : Turn}
    (connectingSocket : turn.io.connectingSocket = io.connectingSocket)
    (peer : turn.io.peer = io.peer) (connects : turn.io.connects = io.connects)
    (unconnected : ∀ token, handler ≠ .connect token)
    (untimed : ∀ timer, handler ≠ .requestTimer timer)
    (unpursued : ∀ attempt, handler.pursues attempt = false)
    (unclosed : ∀ attempt token, handler ≠ .closed attempt token)
    (uncleaned : handler.cleans = false) : ConnectionMove options scope handler io turn := by
  refine .kept connectingSocket peer (fun token own => absurd own (unconnected token))
    (fun timer _ own => absurd own (untimed timer)) (fun _ attempt _ => ⟨?_, fun pursues => ?_⟩)
    (fun attempt token own => absurd own (unclosed attempt token)) uncleaned
  · rw [connects]
    exact fun _ listed _ => listed
  · simp [unpursued] at pursues

theorem onConnect_connectionMove (token : Nat) (endpoint : Endpoint) :
    ConnectionMove options scope (.connect token) io
      (onConnect scope token endpoint { io }) := by
  unfold onConnect
  split
  case isTrue taken =>
    refine .kept rfl rfl (fun other own current free => ?_) (by simp)
      (fun _ _ _ => ⟨fun _ listed _ => listed, by simp [Handler.pursues]⟩) (by simp) rfl
    cases own
    simp [current, free.1, free.2] at taken
  case isFalse free =>
    simp only [Bool.or_eq_true, not_or, Bool.not_eq_true', Bool.not_eq_false, Bool.not_eq_true,
      Option.isSome_eq_false_iff, Option.isNone_iff_eq_none] at free
    cases endpoint with
    | failed errorCode =>
        refine .reported token (.connectFailed (io.nextAttempt + 1) errorCode)
          (.current free.1.1) rfl ?_ ⟨free.1.2, free.2⟩
        exact List.mem_append_right _ (List.mem_singleton.mpr rfl)
    | constructed =>
        refine .began rfl free.1.1 ⟨free.1.2, free.2⟩ rfl free.2 ?_
        exact List.mem_append_right _ (List.mem_singleton.mpr rfl)

/-- Closing the socket of another attempt. -/
theorem closeSocket_connects {attempt other : Nat} (different : other ≠ attempt) (turn : Turn) :
    ∀ connect ∈ turn.io.connects, connect.attempt = other →
      connect ∈ (turn.closeSocket attempt).io.connects := by
  intro connect listed own
  refine List.mem_filter.mpr ⟨listed, ?_⟩
  simp [own, different]

theorem onConnectCompleted_connectionMove
    (exclusive : io.connectingSocket.isSome = true → io.peer = none) (connect : Connect)
    (result : ConnectResult) :
    ConnectionMove options scope (.connectCompleted connect result) io
      (onConnectCompleted scope connect result { io }) := by
  unfold onConnectCompleted
  split
  case isTrue stale =>
    refine .kept rfl rfl (by simp) (by simp) (fun running attempt connecting => ?_) (by simp)
      rfl
    have different : attempt ≠ connect.attempt := by
      rintro rfl
      simp [running, connecting] at stale
    refine ⟨closeSocket_connects different { io }, fun pursues => ?_⟩
    exact absurd (by simpa [Handler.pursues] using pursues) different.symm
  case isFalse valid =>
    have connecting : io.connectingSocket = some connect.attempt := by simp_all
    cases result with
    | error errorCode =>
        refine .reported connect.token (.connectFailed connect.attempt errorCode)
          (.stamped connect.attempt (.inl connecting) fun rule stamped => stamped) rfl ?_
          ⟨rfl, exclusive (by simp [connecting])⟩
        exact List.mem_append_right _ (List.mem_singleton.mpr rfl)
    | socket credentials =>
        refine .kept rfl rfl (by simp) (by simp) (fun _ attempt connecting' => ?_) (by simp)
          rfl
        refine ⟨fun _ listed _ => listed, fun pursues => ?_⟩
        exact ⟨_, List.mem_append_right _ (List.mem_singleton.mpr rfl), pursues⟩

theorem handleConnectedSocket_connectionMove
    (exclusive : io.connectingSocket.isSome = true → io.peer = none) (attempt : Nat)
    (credentials : PeerCredentials) (verified : Bool) (token : Nat) :
    ConnectionMove options scope (.handleConnectedSocket attempt credentials verified token) io
      (handleConnectedSocket scope attempt credentials verified token { io }) := by
  unfold handleConnectedSocket
  split
  case isTrue other =>
    refine .kept rfl rfl (by simp) (by simp) (fun _ tracked connecting => ?_) (by simp) rfl
    have different : tracked ≠ attempt := by
      rintro rfl
      simp [connecting] at other
    refine ⟨closeSocket_connects different { io }, fun pursues => ?_⟩
    exact absurd (by simpa [Handler.pursues] using pursues) different.symm
  case isFalse own =>
    have connecting : io.connectingSocket = some attempt := by simpa using own
    have free := exclusive (by simp [connecting])
    dsimp only
    split
    case isTrue stale => exact .discarded rfl connecting (by simpa using stale) ⟨rfl, free⟩
    case isFalse current =>
      cases verified with
      | false =>
          refine .reported token (.peerVerificationFailed attempt credentials)
            (.stamped attempt (.inl connecting) fun rule stamped => stamped) rfl ?_ ⟨rfl, free⟩
          exact List.mem_append_right _ (List.mem_singleton.mpr rfl)
      | true =>
          refine .connected rfl (by simpa using current) connecting rfl rfl ?_
          exact Function.update_self ..

theorem closeConnectingSocket_free (turn : Turn) :
    turn.closeConnectingSocket.io.connectingSocket = none := by
  unfold closeConnectingSocket
  split
  case h_1 absent => exact absent
  case h_2 => rfl

theorem closePeer_free (errorCode : ErrorCode) (turn : Turn) :
    (turn.closePeer errorCode).io.connectingSocket = turn.io.connectingSocket ∧
      (turn.closePeer errorCode).io.peer = none := by
  unfold closePeer
  split
  case h_1 absent => exact ⟨rfl, absent⟩
  case h_2 => exact ⟨rfl, rfl⟩

/-- The work of both cleanup handlers. -/
theorem close_free (turn : Turn) :
    (turn.closeConnectingSocket.closePeer .operationAborted).io.free := by
  obtain ⟨connectingSocket, peer⟩ := closePeer_free .operationAborted turn.closeConnectingSocket
  exact ⟨connectingSocket.trans (closeConnectingSocket_free turn), peer⟩

theorem onRequestTimer_connectionMove
    (exclusive : io.connectingSocket.isSome = true → io.peer = none) (timer : RequestTimer Nat) :
    ConnectionMove options scope (.requestTimer timer) io
      (onRequestTimer options timer { io }) := by
  have kept (unfired : ∀ token, (io.requestManager.onTimer timer).2 = some token →
      options.invalidateConnectionOnRequestError = true → io.peer = none) :
      ConnectionMove options scope (.requestTimer timer) io
        (({ io } : Turn).request fun manager => (manager.onTimer timer).1) := by
    refine .kept rfl rfl (by simp) (fun other token own => ?_)
      (fun _ _ _ => ⟨fun _ listed _ => listed, by simp [Handler.pursues]⟩) (by simp) rfl
    cases own
    exact unfired token
  unfold onRequestTimer
  dsimp only
  split
  case h_1 silent => exact kept fun token called => by simp [silent] at called
  case h_2 token called =>
    split
    case isFalse disabled => exact kept fun _ _ enabled => absurd enabled disabled
    case isTrue enabled =>
      split
      case h_1 absent => exact kept fun _ _ _ => absent
      case h_2 attempt current =>
        refine .reported token (.closed attempt) (.timer timer rfl called) rfl
          (List.mem_append_right _ (List.mem_singleton.mpr rfl)) ?_
        obtain ⟨connectingSocket, peer⟩ := closePeer_free .connectionReset
          (({ io } : Turn).request fun manager => (manager.onTimer timer).1)
        refine ⟨connectingSocket.trans ?_, peer⟩
        cases taken : io.connectingSocket with
        | none => exact taken
        | some other =>
            have absent := exclusive (by simp [taken])
            exact absurd (absent.symm.trans current) (by simp)

/-- What every handler does to the connection. -/
theorem run_connectionMove (exclusive : io.connectingSocket.isSome = true → io.peer = none)
    (endpoint : Endpoint) (handler : Handler) :
    ConnectionMove options scope handler io (run options scope endpoint handler { io }) := by
  have aside : ∀ (attempt : Nat) (work : Turn → Turn) (handler : Handler),
      (work { io }).io.connectingSocket = io.connectingSocket →
      (work { io }).io.peer = io.peer → (work { io }).io.connects = io.connects →
      (∀ token, handler ≠ .connect token) → (∀ timer, handler ≠ .requestTimer timer) →
      (∀ attempt, handler.pursues attempt = false) →
      (∀ attempt token, handler ≠ .closed attempt token) → handler.cleans = false →
      ConnectionMove options scope handler io (ifCurrent attempt work { io }) := by
    intro attempt work handler connectingSocket peer connects unconnected untimed unpursued
      unclosed uncleaned
    unfold ifCurrent
    split
    · exact .of_aside connectingSocket peer connects unconnected untimed unpursued unclosed
        uncleaned
    · exact .of_aside rfl rfl rfl unconnected untimed unpursued unclosed uncleaned
  cases handler with
  | connect token => exact onConnect_connectionMove token endpoint
  | connectCompleted connect result =>
      exact onConnectCompleted_connectionMove exclusive connect result
  | handleConnectedSocket attempt credentials verified token =>
      exact handleConnectedSocket_connectionMove exclusive attempt credentials verified token
  | stop => exact .cleaned rfl (close_free _) (by simp)
  | invalidateConnection token =>
      refine .cleaned rfl (close_free _) fun other own => ?_
      cases own
      exact List.mem_append_right _ (List.mem_singleton.mpr rfl)
  | peer attempt handler =>
      show ConnectionMove options scope _ io (runPeer options attempt handler { io })
      unfold runPeer
      split <;> exact .of_aside rfl rfl rfl (by simp) (by simp) (fun _ => rfl) (by simp) rfl
  | connected attempt credentials token =>
      exact aside attempt _ _ rfl rfl rfl (by simp) (by simp) (fun _ => rfl) (by simp) rfl
  | received attempt buffer token =>
      exact aside attempt _ _ rfl rfl rfl (by simp) (by simp) (fun _ => rfl) (by simp) rfl
  | requestReceived attempt requestId buffer token =>
      exact aside attempt _ _ rfl rfl rfl (by simp) (by simp) (fun _ => rfl) (by simp) rfl
  | responseReceived attempt requestId buffer =>
      exact aside attempt _ _ rfl rfl rfl (by simp) (by simp) (fun _ => rfl) (by simp) rfl
  | errorOccurred attempt errorCode token =>
      show ConnectionMove options scope _ io (ifCurrent attempt (fun turn =>
        (turn.request (·.completeAll errorCode)).enqueue
          (.notify token (.errorOccurred attempt errorCode))) { io })
      exact aside attempt _ (.errorOccurred attempt errorCode token) rfl rfl rfl (by simp)
        (by simp) (fun _ => rfl) (by simp) rfl
  | closed attempt token =>
      show ConnectionMove options scope _ io
        (ifCurrent attempt (·.onClosed attempt token) { io })
      unfold ifCurrent
      split
      case isTrue current =>
        refine .reported token (.closed attempt)
          (.stamped attempt (.inr current) fun rule stamped => stamped) rfl
          (List.mem_append_right _ (List.mem_singleton.mpr rfl)) ⟨?_, rfl⟩
        cases taken : io.connectingSocket with
        | none => exact taken
        | some other =>
            have absent := exclusive (by simp [taken])
            exact absurd (absent.symm.trans current) (by simp)
      case isFalse other =>
        refine .kept rfl rfl (by simp) (by simp)
          (fun _ _ _ => ⟨fun _ listed _ => listed, by simp [Handler.pursues]⟩) ?_ rfl
        intro attempt' token' own
        cases own
        exact other
  | send data =>
      show ConnectionMove options scope _ io (toPeer _ { io })
      unfold toPeer
      split <;> exact .of_aside rfl rfl rfl (by simp) (by simp) (fun _ => rfl) (by simp) rfl
  | respond requestId data =>
      show ConnectionMove options scope _ io (toPeer _ { io })
      unfold toPeer
      split <;> exact .of_aside rfl rfl rfl (by simp) (by simp) (fun _ => rfl) (by simp) rfl
  | request call data =>
      show ConnectionMove options scope _ io (sendRequest scope call data { io })
      unfold sendRequest
      split <;> exact .of_aside rfl rfl rfl (by simp) (by simp) (fun _ => rfl) (by simp) rfl
  | requestTimer timer => exact onRequestTimer_connectionMove exclusive timer

end

end Turn

/-! ## The peer objects -/

namespace Turn

section

variable {turn : Turn}

variable {options : CommonOptions} {scope : NotificationScope} {handler : Handler}
  {start before after : Turn}

/-- Only the handler of `connect()` begins an attempt. -/
theorem Piece.attempts (piece : Piece options scope handler start before after) :
    after.io.nextAttempt = before.io.nextAttempt ∨
      (∃ token, handler = .connect token) ∧
        after.io.nextAttempt = before.io.nextAttempt + 1 := by
  cases piece with
  | quiet piece => cases piece <;> exact .inl rfl
  | connectFailed _ own => exact .inr ⟨⟨_, own⟩, rfl⟩
  | connect own => exact .inr ⟨⟨_, own⟩, rfl⟩
  | _ => exact .inl rfl

theorem run_begins (options : CommonOptions) (scope : NotificationScope) (endpoint : Endpoint)
    {handler : Handler} (other : ∀ token, handler ≠ .connect token) (turn : Turn) :
    (turn.run options scope endpoint handler).io.nextAttempt = turn.io.nextAttempt := by
  refine (run_pieces options scope endpoint handler turn).keeps
    (fun after => after.io.nextAttempt = turn.io.nextAttempt) (fun piece same => ?_) rfl
  rcases piece.attempts with kept | ⟨⟨token, own⟩, _⟩
  · exact kept.trans same
  · exact absurd own (other token)

/-- Attempts are counted up, one for each connect that is begun. -/
theorem run_attempts (options : CommonOptions) (scope : NotificationScope) (endpoint : Endpoint)
    (handler : Handler) (turn : Turn) :
    turn.io.nextAttempt ≤ (turn.run options scope endpoint handler).io.nextAttempt ∧
      ∀ token, handler = .connect token → scope.isCurrent token = true → turn.io.free →
        (turn.run options scope endpoint handler).io.nextAttempt = turn.io.nextAttempt + 1 := by
  refine ⟨?_, fun token own current free => ?_⟩
  · refine (run_pieces options scope endpoint handler turn).keeps
      (fun after => turn.io.nextAttempt ≤ after.io.nextAttempt) (fun piece counted => ?_)
      (Nat.le_refl _)
    rcases piece.attempts with same | ⟨_, next⟩ <;> omega
  · subst own
    show (turn.onConnect scope token endpoint).io.nextAttempt = _
    cases endpoint <;> simp [onConnect, enqueue, current, free.1, free.2]

/-- A handler of a peer that closes the socket reports it. -/
theorem runPeer_connections (options : CommonOptions) (own : Nat) (handler : PeerHandler)
    {attempt : Nat} {connection : Connection}
    (alive : turn.io.connections attempt = some connection) :
    ∃ after, (turn.runPeer options own handler).io.connections attempt = some after ∧
      (connection.peer.isOpen = true → after.peer.isOpen = true ∨
        .signal attempt connection.token .closed ∈ (turn.runPeer options own handler).jobs) := by
  unfold runPeer
  split
  · exact ⟨connection, alive, .inl⟩
  case h_2 ownConnection ownAlive =>
    by_cases same : attempt = own
    · subst same
      obtain rfl : ownConnection = connection := Option.some.inj (ownAlive.symm.trans alive)
      refine ⟨_, Function.update_self .., fun opened => ?_⟩
      obtain ⟨message, error, _, _, signals⟩ :=
        (PeerTurn.run_shape options handler ownConnection.peer).signals
      cases closed : (PeerTurn.run options handler { peer := ownConnection.peer }).peer.isOpen with
      | true => exact .inl rfl
      | false =>
          refine .inr (List.mem_append_right _ (List.mem_map.mpr ⟨.closed, ?_, rfl⟩))
          rw [signals]
          simp [closedSignals, opened, closed]
    · exact ⟨connection, (Function.update_of_ne same ..).trans alive, .inl⟩

theorem Piece.connections {attempt : Nat} (settled : start.io.connectingSocket ≠ some attempt)
    (other : ∀ own spoken, handler ≠ .peer own spoken)
    (piece : Piece options scope handler start before after) :
    after.io.connections attempt = before.io.connections attempt := by
  cases piece with
  | quiet piece => cases piece <;> rfl
  | speak own => exact absurd own (other _ _)
  | establish own current connecting =>
      have different : attempt ≠ _ := fun same => settled (same ▸ connecting)
      exact Function.update_of_ne different ..
  | _ => rfl

/-- A peer object stays, and stays open or reports that it is closed. -/
theorem run_connections (options : CommonOptions) (scope : NotificationScope)
    (endpoint : Endpoint) (handler : Handler) {attempt : Nat} {connection : Connection}
    (alive : turn.io.connections attempt = some connection)
    (settled : turn.io.connectingSocket ≠ some attempt) :
    ∃ after, (turn.run options scope endpoint handler).io.connections attempt = some after ∧
      (connection.peer.isOpen = true → after.peer.isOpen = true ∨
        .signal attempt connection.token .closed ∈
          (turn.run options scope endpoint handler).jobs) := by
  by_cases spoken : ∃ own handler', handler = .peer own handler'
  · obtain ⟨own, handler', rfl⟩ := spoken
    exact runPeer_connections options own handler' alive
  · have same := (run_pieces options scope endpoint handler turn).keeps
      (fun after => after.io.connections attempt = turn.io.connections attempt)
      (fun piece same => (piece.connections settled
        fun own handler' speaks => spoken ⟨own, handler', speaks⟩).trans same) rfl
    exact ⟨connection, same.trans alive, .inl⟩

/-- Both cleanup handlers leave the client free. -/
theorem run_free (options : CommonOptions) (scope : NotificationScope) (endpoint : Endpoint)
    {handler : Handler} (cleans : handler.cleans = true) (turn : Turn) :
    (turn.run options scope endpoint handler).io.free := by
  cases handler with
  | stop => exact close_free turn
  | invalidateConnection token => exact close_free turn
  | _ => cases cleans

end

end Turn

/-! ## The timers of requests -/

namespace Turn

section

variable {before after turn : Turn}

/-- A handler of a timer that has been waiting. -/
def WaitedIn (requestManager : RequestManager Nat Nat) (handler : Handler) : Prop :=
  ∀ timer, handler = .requestTimer timer →
    (timer.id, timer.timeoutCallback) ∈ requestManager.waits

/-- A piece of a handler that sends no request. -/
structure Unsent (before after : Turn) : Prop where
  issued : after.io.requestManager.pendingRequests.issued =
    before.io.requestManager.pendingRequests.issued
  pending : ∀ request ∈ after.io.requestManager.pendingRequests.entries,
    request ∈ before.io.requestManager.pendingRequests.entries
  waits : ∀ wait ∈ after.io.requestManager.waits, wait ∈ before.io.requestManager.waits
  posts : Appends (WaitedIn before.io.requestManager) before.posts after.posts

namespace Unsent

theorem refl (turn : Turn) : Unsent turn turn := ⟨rfl, fun _ => id, fun _ => id, .refl _⟩

theorem trans {first second third : Turn} (left : Unsent first second)
    (right : Unsent second third) : Unsent first third := by
  refine ⟨right.issued.trans left.issued,
    fun request pending => left.pending request (right.pending request pending),
    fun wait waiting => left.waits wait (right.waits wait waiting),
    left.posts.trans (right.posts.mono fun handler waited timer own => ?_)⟩
  exact left.waits _ (waited timer own)

/-- A piece that leaves the request manager alone. -/
theorem of_same (same : after.io.requestManager = before.io.requestManager)
    (posts : Appends (fun handler => ∀ timer, handler ≠ .requestTimer timer)
      before.posts after.posts) : Unsent before after :=
  ⟨by rw [same], by rw [same]; exact fun _ => id, by rw [same]; exact fun _ => id,
    posts.mono fun handler other timer own => absurd own (other timer)⟩

end Unsent

theorem post_unsent {handler : Handler} (other : ∀ timer, handler ≠ .requestTimer timer)
    (turn : Turn) : Unsent turn (turn.post handler) := by
  refine .of_same rfl (.single ?_ _)
  exact other

theorem enqueue_unsent (job : Job) (turn : Turn) : Unsent turn (turn.enqueue job) :=
  .of_same rfl (.refl _)

/-- A call that completes requests queues the handlers of their timers. -/
theorem request_unsent {call : RequestManager Nat Nat → RequestTurn Nat Nat}
    {address : Nat × PendingRequest Nat → Bool} {errorCode : ErrorCode}
    {data : Option Protocol.Bytes}
    (completes : call turn.io.requestManager =
      turn.io.requestManager.completeWhere address errorCode data) :
    Unsent turn (turn.request call) := by
  refine ⟨?_, fun request pending => ?_, fun wait waiting => ?_, .map ?_ _⟩
  · simp [Turn.request, completes, RequestManager.completeWhere]
  · simp only [Turn.request, completes, RequestManager.completeWhere, Ledger.mem_remove] at pending
    exact pending.1
  · simp only [Turn.request, completes, RequestManager.completeWhere] at waiting
    exact (List.mem_filter.mp waiting).1
  · intro timer member other own
    cases own
    simp only [completes, RequestManager.completeWhere] at member
    obtain ⟨wait, cancelled, rfl⟩ := List.mem_map.mp member
    exact (List.mem_filter.mp cancelled).1

theorem QuietPiece.unsent {handler : Handler} (piece : QuietPiece handler before after) :
    Unsent before after := by
  cases piece with
  | fail completes error => exact request_unsent completes
  | closeSocket attempt =>
      refine .of_same rfl (.map ?_ _)
      simp
  | disconnect => exact .of_same rfl (.refl _)
  | push attempt frame => exact post_unsent (by simp) before
  | @release attempt _ _ _ =>
      have closed : Unsent before (before.post (.peer attempt (.close false))) :=
        post_unsent (by simp) before
      exact closed.trans (.of_same rfl (.refl _))
  | dropPeer _ _ => exact .of_same rfl (.refl _)

theorem Piece.unsent {options : CommonOptions} {scope : NotificationScope} {handler : Handler}
    {start : Turn} (other : ∀ call data, handler ≠ .request call data)
    (piece : Piece options scope handler start before after) : Unsent before after := by
  cases piece with
  | quiet piece => exact piece.unsent
  | respond own current => exact request_unsent rfl
  | report own => exact request_unsent rfl
  | send own => exact absurd own (other _ _)
  | speak own alive ran =>
      refine .of_same rfl (.map ?_ _)
      simp
  | establish own =>
      refine .of_same rfl (.trans (.single ?_ _) (.single ?_ _)) <;> simp
  | _ => exact .of_same rfl (.refl _)

/-- Only the handler of `async_request` sends a request. -/
theorem run_unsent (options : CommonOptions) (scope : NotificationScope) (endpoint : Endpoint)
    {handler : Handler} (other : ∀ call data, handler ≠ .request call data) (turn : Turn) :
    Unsent turn (turn.run options scope endpoint handler) :=
  (run_pieces options scope endpoint handler turn).effect Unsent.refl Unsent.trans
    (Piece.unsent other)

/-- The requests and the timers after a handler were there before, or are those of the one
request that it sent. -/
structure Sent (scope : NotificationScope) (before after : Turn) : Prop where
  issued : before.io.requestManager.pendingRequests.issued ≤
    after.io.requestManager.pendingRequests.issued
  pending : ∀ request ∈ after.io.requestManager.pendingRequests.entries,
    request ∈ before.io.requestManager.pendingRequests.entries ∨
      request.1 = before.io.requestManager.nextRequestId
  waits : ∀ wait ∈ after.io.requestManager.waits, wait ∈ before.io.requestManager.waits ∨
    (wait = (before.io.requestManager.nextRequestId, some scope.capture) ∧
      before.io.requestManager.nextRequestId ≤ after.io.requestManager.pendingRequests.issued)
  posts : Appends (WaitedIn before.io.requestManager) before.posts after.posts

theorem Unsent.sent (unsent : Unsent before after) (scope : NotificationScope) :
    Sent scope before after :=
  ⟨Nat.le_of_eq unsent.issued.symm, fun request pending => .inl (unsent.pending request pending),
    fun wait waiting => .inl (unsent.waits wait waiting), unsent.posts⟩

theorem sendRequest_sent (scope : NotificationScope) (call : Nat) (data : Protocol.Bytes)
    (turn : Turn) : Sent scope turn (turn.sendRequest scope call data) := by
  unfold sendRequest
  split
  · exact (enqueue_unsent _ turn).sent scope
  · refine ⟨Nat.le_succ _, fun request pending => ?_, fun wait waiting => ?_, .single ?_ _⟩
    · refine (List.mem_append.mp pending).imp_right fun new => ?_
      rw [List.mem_singleton.mp new]
      rfl
    · refine (List.mem_append.mp waiting).imp_right fun new => ?_
      exact ⟨List.mem_singleton.mp new, Nat.le_refl _⟩
    · intro timer own
      cases own

theorem run_sent (options : CommonOptions) (scope : NotificationScope) (endpoint : Endpoint)
    (handler : Handler) (turn : Turn) :
    Sent scope turn (turn.run options scope endpoint handler) := by
  by_cases sends : ∃ call data, handler = .request call data
  · obtain ⟨call, data, rfl⟩ := sends
    exact sendRequest_sent scope call data turn
  · have unsent := run_unsent options scope endpoint
      (fun call data own => sends ⟨call, data, own⟩) turn
    exact unsent.sent scope

end

end Turn

end UnixDomainStream.Client
