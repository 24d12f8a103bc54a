import UnixDomainStream.Client.Tracking
import UnixDomainStream.Peer.Messages

/-!
# What a client reports of a connection

A signal of the peer becomes a handler, the handler a notification and the notification an
event; `connected` takes the same way from the second station on.  The reports of one
connection are read off each station, and a step moves them one station on.
-/

namespace UnixDomainStream

/-- A public notification about a connection. -/
inductive Report where
  | connected
  | message (message : Message)
  | error (errorCode : ErrorCode)
  | closed
  deriving DecidableEq, Repr

def Report.message? : Report → Option Message
  | .message content => some content
  | _ => none

def Signal.report? : Signal → Option Report
  | .received buffer => some (.message (.received buffer))
  | .requestReceived requestId buffer => some (.message (.requestReceived requestId buffer))
  | .errorOccurred errorCode => some (.error errorCode)
  | .closed => some .closed
  | _ => none

theorem Signal.report?_ne_connected (signal : Signal) : signal.report? ≠ some .connected := by
  cases signal <;> simp [Signal.report?]

/-- The reports of an open peer: at most the decoded message and an error, and then `closed`
if the handler closed the socket. -/
theorem PeerTurn.run_reports (options : CommonOptions) (handler : PeerHandler) {peer : Peer}
    (opened : peer.isOpen = true) :
    ∃ error : Option ErrorCode,
      (PeerTurn.run options handler { peer }).signals.filterMap Signal.report? =
        (peer.decoded? options handler).toList.map .message ++
          (error.toList.map .error ++
            if (PeerTurn.run options handler { peer }).peer.isOpen then [] else [.closed]) := by
  have shape := PeerTurn.run_shape options handler peer
  have messages := PeerTurn.run_messages options handler peer
  obtain ⟨message, error, source, _, signals⟩ := shape.signals
  generalize PeerTurn.run options handler { peer } = turn at *
  refine ⟨error, ?_⟩
  have ready : (readySignals peer turn.peer).filterMap Signal.report? = [] ∧
      (readySignals peer turn.peer).filterMap Signal.message? = [] := by
    unfold readySignals
    split <;> exact ⟨rfl, rfl⟩
  have errors : (error.toList.map Signal.errorOccurred).filterMap Signal.report? =
        error.toList.map .error ∧
      (error.toList.map Signal.errorOccurred).filterMap Signal.message? = [] := by
    cases error <;> exact ⟨rfl, rfl⟩
  have closed : (closedSignals peer turn.peer).filterMap Signal.report? =
        (if turn.peer.isOpen then [] else [.closed]) ∧
      (closedSignals peer turn.peer).filterMap Signal.message? = [] := by
    unfold closedSignals
    cases after : turn.peer.isOpen <;> simp [opened, Signal.report?, Signal.message?]
  have content : message.toList.filterMap Signal.report? =
      (message.toList.filterMap Signal.message?).map .message := by
    cases message with
    | none => rfl
    | some sent =>
        obtain ⟨body, _, content⟩ := source sent rfl
        cases sent <;> first | rfl | cases content
  rw [← messages, PeerTurn.messages, signals]
  simp only [List.filterMap_append, ready, errors, closed, content, List.nil_append,
    List.append_nil]

namespace Client

open Library
open Protocol (Bytes)

/-! ## The stations of a report -/

section

variable (attempt : Nat)

/-- The report that the handler of a slot is about to notify of. -/
def Handler.report? : Handler → Option Report
  | .connected other _ _ => if other = attempt then some .connected else none
  | .received other buffer _ =>
      if other = attempt then some (.message (.received buffer)) else none
  | .requestReceived other requestId buffer _ =>
      if other = attempt then some (.message (.requestReceived requestId buffer)) else none
  | .errorOccurred other errorCode _ =>
      if other = attempt then some (.error errorCode) else none
  | .closed other _ => if other = attempt then some .closed else none
  | _ => none

def Notice.report? : Notice → Option Report
  | .connected other _ => if other = attempt then some .connected else none
  | .received other buffer =>
      if other = attempt then some (.message (.received buffer)) else none
  | .requestReceived other requestId buffer =>
      if other = attempt then some (.message (.requestReceived requestId buffer)) else none
  | .errorOccurred other errorCode =>
      if other = attempt then some (.error errorCode) else none
  | .closed other => if other = attempt then some .closed else none
  | _ => none

/-- The report that a job delivers. -/
def Job.report? : Job → Option Report
  | .notify _ notice => notice.report? attempt
  | _ => none

/-- The report that a job hands to a slot. -/
def Job.signalled? : Job → Option Report
  | .signal other _ sent => if other = attempt then sent.report? else none
  | _ => none

def Event.report? : Event → Option Report
  | .connected other _ => if other = attempt then some .connected else none
  | .received other buffer =>
      if other = attempt then some (.message (.received buffer)) else none
  | .requestReceived other requestId buffer =>
      if other = attempt then some (.message (.requestReceived requestId buffer)) else none
  | .errorOccurred other errorCode =>
      if other = attempt then some (.error errorCode) else none
  | .closed other => if other = attempt then some .closed else none
  | _ => none

/-- The reports that handlers have enqueued. -/
def notices (jobs : List Job) : List Report := jobs.filterMap (Job.report? attempt)

/-- The reports that slots have posted. -/
def posted (handlers : List Handler) : List Report := handlers.filterMap (Handler.report? attempt)

/-- The reports that the peer has signalled. -/
def signalled (jobs : List Job) : List Report := jobs.filterMap (Job.signalled? attempt)

/-- The reports that have been delivered. -/
def delivered (log : List Event) : List Report := log.filterMap (Event.report? attempt)

end

section

variable {attempt : Nat}

@[simp]
theorem notices_append (first second : List Job) :
    notices attempt (first ++ second) = notices attempt first ++ notices attempt second :=
  List.filterMap_append ..

@[simp]
theorem posted_append (first second : List Handler) :
    posted attempt (first ++ second) = posted attempt first ++ posted attempt second :=
  List.filterMap_append ..

@[simp]
theorem signalled_append (first second : List Job) :
    signalled attempt (first ++ second) = signalled attempt first ++ signalled attempt second :=
  List.filterMap_append ..

@[simp]
theorem delivered_append (first second : List Event) :
    delivered attempt (first ++ second) = delivered attempt first ++ delivered attempt second :=
  List.filterMap_append ..

@[simp]
theorem notices_cons (job : Job) (rest : List Job) :
    notices attempt (job :: rest) = (job.report? attempt).toList ++ notices attempt rest := by
  cases own : job.report? attempt <;> simp [notices, own]

@[simp]
theorem posted_cons (handler : Handler) (rest : List Handler) :
    posted attempt (handler :: rest) =
      (handler.report? attempt).toList ++ posted attempt rest := by
  cases own : handler.report? attempt <;> simp [posted, own]

@[simp]
theorem signalled_cons (job : Job) (rest : List Job) :
    signalled attempt (job :: rest) =
      (job.signalled? attempt).toList ++ signalled attempt rest := by
  cases own : job.signalled? attempt <;> simp [signalled, own]

@[simp]
theorem delivered_cons (event : Event) (rest : List Event) :
    delivered attempt (event :: rest) =
      (event.report? attempt).toList ++ delivered attempt rest := by
  cases own : event.report? attempt <;> simp [delivered, own]

@[simp]
theorem notices_nil : notices attempt [] = [] := rfl

@[simp]
theorem posted_nil : posted attempt [] = [] := rfl

@[simp]
theorem signalled_nil : signalled attempt [] = [] := rfl

@[simp]
theorem delivered_nil : delivered attempt [] = [] := rfl

/-- A peer does not signal that the client is connected. -/
theorem not_connected_mem_signalled (jobs : List Job) : .connected ∉ signalled attempt jobs := by
  intro listed
  obtain ⟨job, _, own⟩ := List.mem_filterMap.mp listed
  cases job with
  | signal other token sent =>
      simp only [Job.signalled?] at own
      split at own
      · exact sent.report?_ne_connected own
      · cases own
  | _ => cases own

end

/-! ## Jobs -/

/-- A notification is delivered only with the current token. -/
def Job.isCurrent (scope : NotificationScope) : Job → Bool
  | .notify token _ => scope.isCurrent token
  | _ => true

/-- A job moves the report that it carries one station on. -/
structure Conveys (attempt : Nat) (scope : NotificationScope) (job : Job) (effect : Effect) :
    Prop where
  posts : posted attempt effect.posts = (job.signalled? attempt).toList
  notices : notices attempt effect.next = [] ∧ notices attempt effect.jobs = []
  signalled : signalled attempt effect.next = [] ∧ signalled attempt effect.jobs = []
  events : delivered attempt effect.events =
    if job.isCurrent scope then (job.report? attempt).toList else []

theorem perform_conveys (attempt : Nat) (dispatcher : Dispatcher) (job : Job) (verdict : Bool) :
    Conveys attempt dispatcher.notificationScope job (perform dispatcher job verdict).2 := by
  cases job with
  | signal other token sent =>
      by_cases same : other = attempt <;> cases sent <;> constructor <;>
        simp [perform, slot, Handler.report?, Job.signalled?, Job.report?, Signal.report?, same]
  | notify token notice =>
      simp only [perform]
      cases current : dispatcher.notificationScope.isCurrent token with
      | false => constructor <;> simp [Job.signalled?, Job.isCurrent, current]
      | true =>
          cases notice <;> constructor <;>
            simp [notify, Job.signalled?, Job.isCurrent, Job.report?, Notice.report?,
              Event.report?, Handler.report?, current]
  | scheduleReconnect =>
      cases running : dispatcher.notificationScope.running <;> constructor <;>
        simp [perform, Job.signalled?, Job.report?, running]
  | reconnect generation =>
      simp only [perform]
      split <;> constructor <;> simp [Job.signalled?, Job.report?]
  | requestCallback call errorCode data =>
      constructor <;> simp [perform, Job.signalled?, Job.report?, Event.report?]
  | _ => constructor <;> simp [perform, Job.signalled?, Job.report?, Handler.report?]

/-! ## Handlers -/

/-- The handler neither passes a report on nor changes the peer. -/
def Handler.isAside : Handler → Bool
  | .connect _ | .connectCompleted _ _ | .responseReceived _ _ _ | .send _ | .respond _ _
  | .request _ _ => true
  | _ => false

namespace Turn

/-- A piece of a handler that adds no report of the attempt. -/
structure Mute (attempt : Nat) (before after : Turn) : Prop where
  posts : posted attempt after.posts = posted attempt before.posts
  notices : notices attempt after.jobs = notices attempt before.jobs
  signalled : signalled attempt after.jobs = signalled attempt before.jobs
  connections : after.io.connections = before.io.connections

variable {attempt : Nat} {turn : Turn}

theorem Mute.refl (turn : Turn) : Mute attempt turn turn := ⟨rfl, rfl, rfl, rfl⟩

theorem Mute.trans {first second third : Turn} (left : Mute attempt first second)
    (right : Mute attempt second third) : Mute attempt first third :=
  ⟨right.posts.trans left.posts, right.notices.trans left.notices,
    right.signalled.trans left.signalled, right.connections.trans left.connections⟩

/-- A piece that appends work that carries no report. -/
theorem Mute.of_appends {after : Turn}
    (posts : Appends (fun handler => handler.report? attempt = none) turn.posts after.posts)
    (jobs : Appends (fun job => job.report? attempt = none ∧ job.signalled? attempt = none)
      turn.jobs after.jobs)
    (connections : after.io.connections = turn.io.connections) : Mute attempt turn after :=
  ⟨posts.filterMap_eq fun _ none => none, jobs.filterMap_eq fun _ none => none.1,
    jobs.filterMap_eq fun _ none => none.2, connections⟩

theorem post_mute {handler : Handler} (unreported : handler.report? attempt = none)
    (turn : Turn) : Mute attempt turn (turn.post handler) := by
  refine .of_appends (.single ?_ _) (.refl _) rfl
  exact unreported

theorem enqueue_mute {job : Job} (unreported : job.report? attempt = none)
    (unsignalled : job.signalled? attempt = none) (turn : Turn) :
    Mute attempt turn (turn.enqueue job) := by
  refine .of_appends (.refl _) (.single ?_ _) rfl
  exact ⟨unreported, unsignalled⟩

theorem request_mute (call : RequestManager Nat Nat → RequestTurn Nat Nat) (turn : Turn) :
    Mute attempt turn (turn.request call) := by
  refine .of_appends (.map ?_ _) (.map ?_ _) rfl
  · intro timer _
    rfl
  · intro completion _
    exact ⟨rfl, rfl⟩

theorem closeSocket_mute (other : Nat) (turn : Turn) :
    Mute attempt turn (turn.closeSocket other) := by
  refine .of_appends (.map ?_ _) (.refl _) rfl
  intro connect _
  rfl

theorem QuietPiece.mute {handler : Handler} {before after : Turn}
    (piece : QuietPiece handler before after) : Mute attempt before after := by
  cases piece with
  | fail _ _ => exact request_mute _ before
  | closeSocket other => exact closeSocket_mute other before
  | push other frame => exact post_mute rfl before
  | @release other _ _ _ =>
      have closing : Handler.report? attempt (.peer other (.close false)) = none := rfl
      have closed := post_mute closing before
      exact ⟨closed.posts, closed.notices, closed.signalled, closed.connections⟩
  | _ => exact ⟨rfl, rfl, rfl, rfl⟩

theorem QuietPieces.mute {handler : Handler} {before after : Turn}
    (pieces : QuietPieces handler before after) : Mute attempt before after :=
  pieces.effect Mute.refl Mute.trans QuietPiece.mute

theorem Piece.mute {options : CommonOptions} {scope : NotificationScope} {handler : Handler}
    {start before after : Turn} (attempt : Nat) (aside : handler.isAside = true)
    (piece : Piece options scope handler start before after) :
    Mute attempt before after ∧ after.io.peer = before.io.peer := by
  cases piece with
  | quiet piece =>
      refine ⟨piece.mute, ?_⟩
      cases piece with
      | release drops => cases handler <;> simp [Handler.drops, Handler.isAside] at drops aside
      | dropPeer drops => cases handler <;> simp [Handler.drops, Handler.isAside] at drops aside
      | _ => rfl
  | notify told =>
      refine ⟨?_, rfl⟩
      cases told with
      | connectFailed connect errorCode => exact enqueue_mute rfl rfl before
      | verifyPeer connect credentials => exact enqueue_mute rfl rfl before
      | _ => cases aside
  | respond own current => exact ⟨request_mute _ before, rfl⟩
  | refuse own => exact ⟨enqueue_mute rfl rfl _, rfl⟩
  | send own current =>
      refine ⟨.of_appends (.single ?_ _) (.refl _) rfl, rfl⟩
      rfl
  | connectFailed errorCode own =>
      refine ⟨.of_appends (.refl _) (.single ?_ _) rfl, rfl⟩
      exact ⟨rfl, rfl⟩
  | connect own => exact ⟨.of_appends (.refl _) (.refl _) rfl, rfl⟩
  | report own => simp [own, Handler.isAside] at aside
  | speak own => simp [own, Handler.isAside] at aside
  | establish own => simp [own, Handler.isAside] at aside

theorem run_aside {options : CommonOptions} {scope : NotificationScope} {handler : Handler}
    (attempt : Nat) (aside : handler.isAside = true) (endpoint : Endpoint) (turn : Turn) :
    Mute attempt turn (turn.run options scope endpoint handler) ∧
      (turn.run options scope endpoint handler).io.peer = turn.io.peer := by
  refine (run_pieces options scope endpoint handler turn).keeps
    (fun after => Mute attempt turn after ∧ after.io.peer = turn.io.peer) ?_ ⟨.refl _, rfl⟩
  rintro before after piece ⟨muted, same⟩
  obtain ⟨mute, peer⟩ := piece.mute attempt aside
  exact ⟨muted.trans mute, peer.trans same⟩

/-- The reports of the attempt that a handler appends. -/
structure Adds (attempt : Nat) (turn : Turn) (posts told sent : List Report) : Prop where
  posts : posted attempt turn.posts = posts
  notices : notices attempt turn.jobs = told
  signalled : signalled attempt turn.jobs = sent

/-- What a handler does to the reports of an attempt, which must not be the one that it is
about to begin. -/
inductive Route (options : CommonOptions) (scope : NotificationScope) (attempt : Nat)
    (handler : Handler) (io : Io) (turn : Turn) : Prop where
  | aside (dropped : handler.report? attempt = none ∨ io.peer ≠ some attempt)
      (adds : turn.Adds attempt [] [] [])
      (peer : turn.io.peer = io.peer ∨ io.peer ≠ some attempt ∧ turn.io.peer ≠ some attempt)
      (connection : turn.io.connections attempt = io.connections attempt)
      (unspoken : ∀ spoken, handler = .peer attempt spoken → io.connections attempt = none)
  | born {credentials : PeerCredentials} {token : Nat}
      (own : handler = .handleConnectedSocket attempt credentials true token)
      (connecting : io.connectingSocket = some attempt) (current : scope.isCurrent token = true)
      (adds : turn.Adds attempt [.connected] [] []) (peer : turn.io.peer = some attempt)
      (connection : turn.io.connections attempt = some { peer := {}, token })
  | spoke {spoken : PeerHandler} {connection : Connection} (own : handler = .peer attempt spoken)
      (alive : io.connections attempt = some connection)
      (adds : turn.Adds attempt [] []
        ((PeerTurn.run options spoken { peer := connection.peer }).signals.filterMap
          Signal.report?))
      (peer : turn.io.peer = io.peer)
      (after : turn.io.connections attempt = some
        { connection with peer := (PeerTurn.run options spoken { peer := connection.peer }).peer })
  | passed {report : Report} (own : handler.report? attempt = some report)
      (current : io.peer = some attempt) (adds : turn.Adds attempt [] [report] [])
      (peer : turn.io.peer = if report = .closed then none else some attempt)
      (connection : turn.io.connections attempt = io.connections attempt)
  | timedOut {timer : RequestTimer Nat} {token : Nat} (own : handler = .requestTimer timer)
      (called : (io.requestManager.onTimer timer).2 = some token)
      (enabled : options.invalidateConnectionOnRequestError = true)
      (current : io.peer = some attempt) (adds : turn.Adds attempt [] [.closed] [])
      (peer : turn.io.peer = none)
      (connection : turn.io.connections attempt = io.connections attempt)
  | cleaned (own : handler.cleans = true) (current : io.peer = some attempt)
      (adds : turn.Adds attempt [] [] []) (peer : turn.io.peer = none)
      (connection : turn.io.connections attempt = io.connections attempt)

section

variable {options : CommonOptions} {scope : NotificationScope} {io : Io} {handler : Handler}

theorem Mute.adds {turn : Turn} (mute : Mute attempt { io } turn) : turn.Adds attempt [] [] [] :=
  ⟨mute.posts, mute.notices, mute.signalled⟩

/-- A handler that reports nothing and leaves the peer alone. -/
theorem Route.of_mute {turn : Turn} (mute : Mute attempt { io } turn)
    (dropped : handler.report? attempt = none ∨ io.peer ≠ some attempt)
    (peer : turn.io.peer = io.peer)
    (unspoken : ∀ spoken, handler = .peer attempt spoken → io.connections attempt = none) :
    Route options scope attempt handler io turn :=
  .aside dropped mute.adds (.inl peer) (congrFun mute.connections attempt) unspoken

/-- Work for the current peer that passes a report on. -/
theorem ifCurrent_route {own : Nat} {work : Turn → Turn} {report : Report}
    (reported : handler.report? attempt = if own = attempt then some report else none)
    (open' : report ≠ .closed)
    (mute : own ≠ attempt → Mute attempt { io } (work { io }))
    (adds : own = attempt → (work { io }).Adds attempt [] [report] [])
    (peer : (work { io }).io.peer = io.peer)
    (connections : (work { io }).io.connections = io.connections)
    (unspoken : ∀ spoken, handler ≠ .peer attempt spoken) :
    Route options scope attempt handler io (ifCurrent own work { io }) := by
  unfold ifCurrent
  split
  case isTrue current =>
    by_cases same : own = attempt
    · refine .passed (by rw [reported, if_pos same]) (same ▸ current) (adds same) ?_
        (congrFun connections attempt)
      rw [if_neg open', peer, ← same]
      exact current
    · exact .of_mute (mute same) (.inl (by rw [reported, if_neg same])) peer
        fun spoken own => absurd own (unspoken spoken)
  case isFalse other =>
    refine .of_mute (.of_appends (.refl _) (.refl _) rfl) ?_ rfl
      fun spoken own => absurd own (unspoken spoken)
    by_cases same : own = attempt
    · exact .inr (same ▸ other)
    · exact .inl (by rw [reported, if_neg same])

theorem runPeer_route (own : Nat) (spoken : PeerHandler) :
    Route options scope attempt (.peer own spoken) io (runPeer options own spoken { io }) := by
  unfold runPeer
  split
  case h_1 absent =>
    refine .of_mute (.of_appends (.refl _) (.refl _) rfl) (.inl rfl) rfl fun other same => ?_
    cases same
    exact absent
  case h_2 connection alive =>
    have posts : posted attempt
        ((PeerTurn.run options spoken { peer := connection.peer }).posted.map (.peer own)) = [] := by
      refine List.filterMap_eq_nil_iff.mpr fun handler listed => ?_
      obtain ⟨_, _, rfl⟩ := List.mem_map.mp listed
      rfl
    have told : notices attempt ((PeerTurn.run options spoken
        { peer := connection.peer }).signals.map (.signal own connection.token)) = [] := by
      refine List.filterMap_eq_nil_iff.mpr fun job listed => ?_
      obtain ⟨_, _, rfl⟩ := List.mem_map.mp listed
      rfl
    by_cases same : own = attempt
    · subst same
      refine .spoke rfl alive ⟨posts, told, ?_⟩ rfl (Function.update_self ..)
      refine (List.filterMap_map ..).trans (List.filterMap_congr fun sent _ => ?_)
      simp [Job.signalled?]
    · refine .aside (.inl rfl) ⟨posts, told, ?_⟩ (.inl rfl)
        (Function.update_of_ne (Ne.symm same) ..) fun other own' => ?_
      case refine_2 =>
        cases own'
        exact absurd rfl same
      refine List.filterMap_eq_nil_iff.mpr fun job listed => ?_
      obtain ⟨_, _, rfl⟩ := List.mem_map.mp listed
      simp [Job.signalled?, same]

theorem handleConnectedSocket_route
    (exclusive : io.connectingSocket.isSome = true → io.peer = none) (own : Nat)
    (credentials : PeerCredentials) (verified : Bool) (token : Nat) :
    Route options scope attempt (.handleConnectedSocket own credentials verified token) io
      (handleConnectedSocket scope own credentials verified token { io }) := by
  have taken : Mute attempt { io }
      { ({ io } : Turn) with io := { io with connectingSocket := none } } :=
    .of_appends (.refl _) (.refl _) rfl
  unfold handleConnectedSocket
  split
  · exact .of_mute (closeSocket_mute _ _) (.inl rfl) rfl (by simp)
  case isFalse connecting =>
    have connecting : io.connectingSocket = some own := by simpa using connecting
    have free := exclusive (by simp [connecting])
    dsimp only
    split
    · exact .of_mute (taken.trans (closeSocket_mute _ _)) (.inl rfl) rfl (by simp)
    case isFalse current =>
      cases verified with
      | false =>
          exact .of_mute ((taken.trans (closeSocket_mute _ _)).trans (enqueue_mute rfl rfl _))
            (.inl rfl) rfl (by simp)
      | true =>
          by_cases same : own = attempt
          · subst same
            refine .born rfl connecting (by simpa using current) ⟨?_, rfl, rfl⟩ rfl
              (Function.update_self ..)
            simp [post, Handler.report?]
          · refine .aside (.inl rfl) ⟨?_, rfl, rfl⟩ (.inr ⟨by simp [free], ?_⟩)
              (Function.update_of_ne (Ne.symm same) ..) (by simp)
            · simp [post, Handler.report?, same]
            · simpa [post] using same

/-- The handlers of `stop()` and `invalidate_connection()` drop the peer without a report. -/
theorem cleaned_route {turn : Turn} (own : handler.cleans = true) (mute : Mute attempt { io } turn)
    (free : turn.io.free) : Route options scope attempt handler io turn := by
  by_cases current : io.peer = some attempt
  · exact .cleaned own current mute.adds free.2 (congrFun mute.connections attempt)
  · refine .aside (.inr current) mute.adds (.inr ⟨current, ?_⟩)
      (congrFun mute.connections attempt) fun spoken same => ?_
    · simp [free.2]
    · rw [same] at own
      cases own

theorem onClosed_route (own token : Nat) :
    Route options scope attempt (.closed own token) io
      (ifCurrent own (·.onClosed own token) { io }) := by
  have failed := @request_mute attempt (·.completeAll .connectionReset) { io }
  unfold ifCurrent
  split
  case isTrue current =>
    by_cases same : own = attempt
    · subst same
      refine .passed (by simp [Handler.report?]; rfl) current ⟨failed.posts, ?_, ?_⟩ rfl rfl
      · have kept := failed.notices
        simp only [onClosed, enqueue, notices_append, notices_cons, notices_nil] at kept ⊢
        rw [kept]
        simp [Job.report?, Notice.report?]
      · have kept := failed.signalled
        simp only [onClosed, enqueue, signalled_append, signalled_cons, signalled_nil] at kept ⊢
        rw [kept]
        rfl
    · have unreported : Job.report? attempt (.notify token (.closed own)) = none := by
        simp [Job.report?, Notice.report?, same]
      have dropped : Mute attempt { io } (({ io } : Turn).onClosed own token) := by
        refine failed.trans (Mute.trans ?_ (enqueue_mute unreported rfl _))
        exact .of_appends (.refl _) (.refl _) rfl
      have unreported : (Handler.closed own token).report? attempt = none := by
        simp [Handler.report?, same]
      have away : io.peer ≠ some attempt := by
        rw [show io.peer = some own from current]
        simpa using same
      refine .aside (.inl unreported) dropped.adds (.inr ⟨away, ?_⟩) rfl (by simp)
      simp [onClosed, enqueue]
  case isFalse other =>
    refine .of_mute (.of_appends (.refl _) (.refl _) rfl) ?_ rfl (by simp)
    by_cases same : own = attempt
    · exact .inr (same ▸ other)
    · exact .inl (by simp [Handler.report?, same])

theorem onRequestTimer_route (timer : RequestTimer Nat) :
    Route options scope attempt (.requestTimer timer) io
      (onRequestTimer options timer { io }) := by
  have expired := @request_mute attempt (fun manager => (manager.onTimer timer).1) { io }
  unfold onRequestTimer
  dsimp only
  split
  · exact .of_mute expired (.inl rfl) rfl (by simp)
  case h_2 token called =>
    split
    case isFalse => exact .of_mute expired (.inl rfl) rfl (by simp)
    case isTrue enabled =>
      split
      · exact .of_mute expired (.inl rfl) rfl (by simp)
      case h_2 own current' =>
        have current : io.peer = some own := current'
        let completed := ({ io } : Turn).request fun manager => (manager.onTimer timer).1
        have reset : QuietPieces (.requestTimer timer) completed
            (completed.closePeer .connectionReset) := closePeer_pieces rfl (by decide) completed
        have closed := expired.trans reset.mute
        have free := (closePeer_free .connectionReset
          (({ io } : Turn).request fun manager => (manager.onTimer timer).1)).2
        by_cases same : own = attempt
        · subst same
          refine .timedOut rfl called enabled current ⟨closed.posts, ?_, ?_⟩ free
            (congrFun closed.connections own)
          · have kept := closed.notices
            simp only [enqueue, notices_append, notices_cons, notices_nil] at kept ⊢
            rw [kept]
            simp [Job.report?, Notice.report?]
          · have kept := closed.signalled
            simp only [enqueue, signalled_append, signalled_cons, signalled_nil] at kept ⊢
            rw [kept]
            rfl
        · have unreported : Job.report? attempt (.notify token (.closed own)) = none := by
            simp [Job.report?, Notice.report?, same]
          have dropped := closed.trans (enqueue_mute unreported rfl _)
          refine .aside (.inl rfl) dropped.adds
            (.inr ⟨by rw [current]; simpa using same, ?_⟩) (congrFun dropped.connections attempt)
            (by simp)
          simp [enqueue, free]

/-- The way that every handler takes. -/
theorem run_route (exclusive : io.connectingSocket.isSome = true → io.peer = none)
    (endpoint : Endpoint) (handler : Handler) :
    Route options scope attempt handler io (run options scope endpoint handler { io }) := by
  have aside : handler.isAside = true →
      Route options scope attempt handler io (run options scope endpoint handler { io }) := by
    intro aside
    obtain ⟨mute, peer⟩ := run_aside attempt aside endpoint { io }
    refine .of_mute mute (.inl ?_) peer fun spoken own => ?_
    · cases handler <;> first | rfl | cases aside
    · rw [own] at aside
      cases aside
  cases handler with
  | handleConnectedSocket own credentials verified token =>
      exact handleConnectedSocket_route exclusive own credentials verified token
  | stop =>
      have closed : QuietPieces .stop { io } _ := close_pieces rfl { io }
      exact cleaned_route rfl closed.mute (close_free _)
  | invalidateConnection token =>
      have closed : QuietPieces (.invalidateConnection token) { io } _ := close_pieces rfl { io }
      exact cleaned_route rfl (closed.mute.trans (enqueue_mute rfl rfl _)) (close_free _)
  | peer own spoken => exact runPeer_route own spoken
  | connected own credentials token =>
      refine ifCurrent_route rfl (by simp) (fun other => enqueue_mute ?_ rfl _) (fun same => ?_)
        rfl rfl (by simp)
      · simp [Job.report?, Notice.report?, other]
      · constructor <;> simp [enqueue, Job.report?, Notice.report?, Job.signalled?, same]
  | received own buffer token =>
      refine ifCurrent_route rfl (by simp) (fun other => enqueue_mute ?_ rfl _) (fun same => ?_)
        rfl rfl (by simp)
      · simp [Job.report?, Notice.report?, other]
      · constructor <;> simp [enqueue, Job.report?, Notice.report?, Job.signalled?, same]
  | requestReceived own requestId buffer token =>
      refine ifCurrent_route rfl (by simp) (fun other => enqueue_mute ?_ rfl _) (fun same => ?_)
        rfl rfl (by simp)
      · simp [Job.report?, Notice.report?, other]
      · constructor <;> simp [enqueue, Job.report?, Notice.report?, Job.signalled?, same]
  | errorOccurred own errorCode token =>
      have failed := @request_mute attempt (·.completeAll errorCode) { io }
      show Route options scope attempt _ io (ifCurrent own (fun turn =>
        (turn.request (·.completeAll errorCode)).enqueue
          (.notify token (.errorOccurred own errorCode))) { io })
      refine ifCurrent_route rfl (by simp)
        (fun other => failed.trans (enqueue_mute ?_ rfl _)) (fun same => ?_) rfl rfl
        (by simp)
      · simp [Job.report?, Notice.report?, other]
      · have told := failed.notices
        have sent := failed.signalled
        refine ⟨failed.posts, ?_, ?_⟩
        · simp only [enqueue, notices_append, notices_cons, notices_nil] at told ⊢
          rw [told]
          simp [Job.report?, Notice.report?, same]
        · simp only [enqueue, signalled_append, signalled_cons, signalled_nil] at sent ⊢
          rw [sent]
          rfl
  | closed own token => exact onClosed_route own token
  | requestTimer timer => exact onRequestTimer_route timer
  | _ => exact aside rfl

end

end Turn

/-! ## The environment -/

/-- What happens outside to the reports of an attempt, to its peer object and to the peer. -/
structure Settled (attempt : Nat) (state state' : State) : Prop where
  posts : posted attempt state'.handlers = posted attempt state.handlers
  notices : notices attempt state'.jobs = notices attempt state.jobs
  signalled : signalled attempt state'.jobs = signalled attempt state.jobs ∨
    state.io.peer ≠ some attempt ∧ signalled attempt state'.jobs = []
  peer : state'.io.peer = state.io.peer
  alive : ∀ connection, state.io.peer = some attempt →
    state.io.connections attempt = some connection →
    ∃ after, state'.io.connections attempt = some after ∧
      after.peer.isOpen = connection.peer.isOpen
  connections : ∀ after, state'.io.connections attempt = some after →
    ∃ connection, state.io.connections attempt = some connection ∧
      after.peer.isOpen = connection.peer.isOpen

theorem Accepts.settled (attempt : Nat) {state state' : State} {input : Input}
    {events : List Event} (accepts : Accepts state input events state') :
    Settled attempt state state' := by
  have posts : ∀ {handler : Handler} {io : Io}, handler.report? attempt = none →
      io.peer = state.io.peer → io.connections = state.io.connections →
      Settled attempt state (post handler { state with io }) := by
    intro handler io unreported peer connections
    refine ⟨?_, rfl, .inl rfl, peer, fun connection _ alive => ⟨connection, ?_, rfl⟩,
      fun after alive => ⟨after, ?_, rfl⟩⟩
    · simp [post, unreported]
    · exact (congrFun connections attempt).trans alive
    · exact (congrFun connections attempt).symm.trans alive
  have enqueues : ∀ {job : Job}, job.report? attempt = none → job.signalled? attempt = none →
      Settled attempt state (enqueue job state) := by
    intro job unreported unsignalled
    refine ⟨rfl, ?_, .inl ?_, rfl, fun connection _ alive => ⟨connection, alive, rfl⟩,
      fun after alive => ⟨after, alive, rfl⟩⟩
    · simp [enqueue, unreported]
    · simp [enqueue, unsignalled]
  cases accepts with
  | asyncStart => exact enqueues rfl rfl
  | asyncStop => exact enqueues rfl rfl
  | asyncInvalidateConnection => exact enqueues rfl rfl
  | @peerCompletes own connection completion peer handler held completes =>
      have same := (Peer.complete?_keeps completes).1
      refine ⟨by simp [post, Handler.report?], rfl, .inl rfl, rfl, fun other _ alive => ?_,
        fun after alive => ?_⟩
      · by_cases own' : attempt = own
        · subst own'
          obtain rfl : connection = other := Option.some.inj (held.symm.trans alive)
          exact ⟨_, Function.update_self .., same⟩
        · exact ⟨other, (Function.update_of_ne own' ..).trans alive, rfl⟩
      · by_cases own' : attempt = own
        · subst own'
          have alive := (Function.update_self ..).symm.trans alive
          rw [← Option.some.inj alive]
          exact ⟨connection, held, same⟩
        · exact ⟨after, (Function.update_of_ne own' ..).symm.trans alive, rfl⟩
  | @destroy own connection held unheld =>
      have kept : notices attempt (state.jobs.filter fun job => !job.isOf own) =
          notices attempt state.jobs := by
        simp only [notices, List.filterMap_filter]
        refine List.filterMap_congr fun job _ => ?_
        cases job <;> simp [Job.isOf, Job.report?]
      refine ⟨rfl, kept, ?_, rfl, fun other current alive => ?_, fun after alive => ?_⟩
      · by_cases own' : attempt = own
        · subst own'
          refine .inr ⟨fun current => ?_, List.filterMap_eq_nil_iff.mpr fun job listed => ?_⟩
          · simp [released, current] at unheld
          · have other := (List.mem_filter.mp listed).2
            cases job with
            | signal another token sent =>
                simp only [Job.isOf, Bool.not_eq_true', beq_eq_false_iff_ne] at other
                simp [Job.signalled?, other]
            | _ => rfl
        · refine .inl ?_
          simp only [signalled, List.filterMap_filter]
          refine List.filterMap_congr fun job _ => ?_
          cases job <;> simp [Job.isOf, Job.signalled?]
          rintro rfl rfl
          exact absurd rfl own'
      · have own' : attempt ≠ own := by
          rintro rfl
          simp [released, current] at unheld
        exact ⟨other, (Function.update_of_ne own' ..).trans alive, rfl⟩
      · by_cases own' : attempt = own
        · subst own'
          exact absurd ((Function.update_self ..).symm.trans alive) (by simp)
        · exact ⟨after, (Function.update_of_ne own' ..).symm.trans alive, rfl⟩
  | _ => exact posts rfl rfl rfl

end Client

end UnixDomainStream
