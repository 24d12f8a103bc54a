import UnixDomainStream.Server.Lifecycle
import UnixDomainStream.Server.Stopping

/-!
# The server follows the life of each peer

The life of a peer id is read off the state of the server, and every step of the
server is a row of moves of that life.
-/

namespace UnixDomainStream.Server

open Library
open Protocol (Bytes)

/-! ## The life of a peer in the server -/

/-- The stage in which a signal waits. -/
def stageOf : Signal → Stage
  | .ready => .ready
  | .errorOccurred _ => .error
  | .closed => .closed
  | _ => .message

/-- The work that a job is for the given peer. -/
def Job.stage? (id : Nat) : Job → Option Stage
  | .signal (.accepted owner _ _) sent => if owner = id then some (stageOf sent) else none
  | .notify _ (.ready owner _) => if owner = id then some .verify else none
  | .enqueuePeerErrorOccurred owner _ => if owner = id then some .reportError else none
  | .enqueuePeerClosed owner => if owner = id then some .reportClosed else none
  | .received owner _ => if owner = id then some .deliver else none
  | .requestReceived owner _ _ => if owner = id then some .deliver else none
  | .peerErrorOccurred owner _ => if owner = id then some .deliver else none
  | .peerClosed owner => if owner = id then some .peerClosed else none
  | _ => none

/-- The handler may come to close the peer from this side. -/
def Handler.mayClose (id : Nat) : Handler → Bool
  | .closePeer owner => owner == id
  | .request _ owner _ => owner == id
  | .requestTimer timer => timer.timeoutCallback == some id
  | _ => false

/-- The handler closes the peer and notifies on completion. -/
def Handler.finishes (id : Nat) : Handler → Bool
  | .peer (.accepted owner) (.close true) => owner == id
  | _ => false

def Handler.erases (id : Nat) : Handler → Bool
  | .closed owner => owner == id
  | _ => false

/-- A handler without meaning for the peer, unless it may close it. -/
def Handler.plain (id : Nat) (handler : Handler) : Bool :=
  !handler.finishes id && !handler.erases id && !handler.stops

def Job.plain (id : Nat) (job : Job) : Bool := (job.stage? id).isNone && !job.stops

def Event.mark? (id : Nat) : Event → Option Mark
  | .accepted owner _ => if owner = id then some .accepted else none
  | .verifyPeer owner _ verdict => if owner = id then some (.verified verdict) else none
  | .peerConnected owner _ => if owner = id then some .connected else none
  | .received owner _ => if owner = id then some .data else none
  | .requestReceived owner _ _ => if owner = id then some .data else none
  | .peerErrorOccurred owner _ => if owner = id then some .data else none
  | .peerClosed owner => if owner = id then some .closed else none
  | _ => none

/-- What the log says about one peer. -/
def marks (id : Nat) (events : List Event) : List Mark := events.filterMap (Event.mark? id)

/-- A request whose timeout closes the peer. -/
def Io.mayClose (id : Nat) (io : Io) : Bool :=
  io.requestManager.waits.any fun wait => wait.2 == some id

def State.life (id : Nat) (state : State) : Lifecycle where
  created := decide (0 < id ∧ id ≤ state.io.nextPeerId)
  alive := (state.io.connections (.accepted id)).isSome
  isOpen := (state.io.connections (.accepted id)).any fun connection => connection.peer.isOpen
  ready := (state.io.connections (.accepted id)).all fun connection => connection.peer.ready
  listed := decide (id ∈ state.io.peers)
  exposed := decide (id ∈ state.dispatcher.exposedPeerIds)
  closable := state.handlers.any (Handler.mayClose id) || state.io.mayClose id
  closing := state.handlers.any (Handler.finishes id)
  erasing := state.handlers.any (Handler.erases id)
  stopping := state.handlers.any Handler.stops || (state.jobs ++ state.delayed).any Job.stops
  stages := state.jobs.filterMap (Job.stage? id)

theorem life_initial (id : Nat) : initial.life id = Lifecycle.unborn := by
  have unnumbered : 0 < id → ¬ id = 0 := by omega
  simpa [State.life, initial, Lifecycle.unborn, Io.mayClose] using unnumbered

/-- The handler may mean something for the peer. -/
def Handler.concerns (io : Io) (id : Nat) : Handler → Bool
  | .stop => true
  | .accept _ (.socket _) => io.nextPeerId + 1 == id
  | .peer (.accepted owner) _ => owner == id
  | .request _ owner _ => owner == id
  | .closePeer owner => owner == id
  | .requestTimer timer => timer.timeoutCallback == some id
  | .closed owner => owner == id
  | _ => false

/-! ## Pieces of handlers -/

namespace Turn

/-- The state with a handler in progress. -/
def onto (base : State) (turn : Turn) : State :=
  { base with
    io := turn.io
    handlers := base.handlers ++ turn.posts
    jobs := base.jobs ++ turn.jobs }

/-- A piece of a handler that lets nothing happen to one peer. -/
structure Tame (id : Nat) (before after : Turn) : Prop where
  born : id ≤ after.io.nextPeerId ↔ id ≤ before.io.nextPeerId
  connection : after.io.connections (.accepted id) = before.io.connections (.accepted id)
  listed : id ∈ after.io.peers ↔ id ∈ before.io.peers
  closable : after.posts.any (Handler.mayClose id) || after.io.mayClose id →
    before.posts.any (Handler.mayClose id) || before.io.mayClose id
  posts : Appends (fun handler => handler.plain id = true) before.posts after.posts
  jobs : Appends (fun job => job.plain id = true) before.jobs after.jobs
  events : Appends (fun event => event.mark? id = none) before.events after.events

variable {id : Nat} {before after turn : Turn}

namespace Tame

theorem refl (id : Nat) (turn : Turn) : Tame id turn turn :=
  ⟨.rfl, rfl, .rfl, fun closable => closable, .refl _, .refl _, .refl _⟩

theorem trans {first second third : Turn} (left : Tame id first second)
    (right : Tame id second third) : Tame id first third :=
  ⟨right.born.trans left.born, right.connection.trans left.connection,
    right.listed.trans left.listed, fun closable => left.closable (right.closable closable),
    left.posts.trans right.posts, left.jobs.trans right.jobs, left.events.trans right.events⟩

end Tame

/-- Posts that close nothing leave the peer as closable as it was. -/
theorem closable_of_appends
    (posts : Appends (fun handler => handler.mayClose id = false) before.posts after.posts)
    (same : after.io.requestManager = before.io.requestManager) :
    after.posts.any (Handler.mayClose id) || after.io.mayClose id →
      before.posts.any (Handler.mayClose id) || before.io.mayClose id := by
  rw [posts.any_eq fun _ harmless => harmless, Io.mayClose, same]
  exact fun closable => closable

theorem Internal.tame (internal : Internal before after) (id : Nat) : Tame id before after := by
  refine ⟨by rw [internal.nextPeerId], internal.connections id, by rw [internal.peers],
    closable_of_appends (internal.posts.mono ?_) internal.requestManager, internal.posts.mono ?_,
    internal.jobs.mono ?_, internal.events.mono ?_⟩
  · intro handler internal
    cases handler <;> trivial
  · intro handler internal
    cases handler with
    | peer ref handler => cases ref <;> trivial
    | _ => trivial
  · intro job internal
    cases job with
    | signal slots sent => cases slots <;> trivial
    | notify token notice => cases notice <;> trivial
    | _ => trivial
  · intro event internal
    cases event <;> trivial

/-- Completing requests cancels their timers. -/
theorem request_tame {call : RequestManager Nat Nat → RequestTurn Nat Nat}
    {address : Nat × PendingRequest Nat → Bool} {errorCode : ErrorCode} {data : Option Bytes}
    (completes : call turn.io.requestManager =
      turn.io.requestManager.completeWhere address errorCode data) (id : Nat) :
    Tame id turn (turn.request call) := by
  refine ⟨.rfl, rfl, .rfl, ?_, .map ?_ _, .map ?_ _, .refl _⟩
  · simp only [Turn.request, completes, RequestManager.completeWhere, Io.mayClose, List.any_append,
      List.any_map, List.any_filter, Bool.or_eq_true, List.any_eq_true]
    rintro ((posted | ⟨wait, member, cancelled⟩) | ⟨wait, member, kept⟩)
    · exact .inl posted
    · simp only [Function.comp_apply, Handler.mayClose, Bool.and_eq_true] at cancelled
      exact .inr ⟨wait, member, cancelled.2⟩
    · simp only [Bool.and_eq_true] at kept
      exact .inr ⟨wait, member, kept.2⟩
  · intro timer _
    rfl
  · intro completion _
    rfl

theorem post_tame {handler : Handler} (harmless : handler.mayClose id = false)
    (plain : handler.plain id = true) (turn : Turn) : Tame id turn (turn.post handler) := by
  refine ⟨.rfl, rfl, .rfl, closable_of_appends (.single ?_ _) rfl, .single ?_ _, .refl _, .refl _⟩
  · exact harmless
  · exact plain

theorem enqueue_tame {job : Job} (plain : job.plain id = true) (turn : Turn) :
    Tame id turn (turn.enqueue job) := by
  refine ⟨.rfl, rfl, .rfl, fun closable => closable, .refl _, .single ?_ _, .refl _⟩
  exact plain

theorem erasePeer_tame {other : Nat} (different : other ≠ id) (turn : Turn) :
    Tame id turn (turn.erasePeer other) := by
  refine ⟨.rfl, rfl, ?_, fun closable => closable, .refl _, .refl _, .refl _⟩
  simp [erasePeer, different.symm]

/-- The peer's own slots captured its id. -/
theorem slots_accepted {other : Nat} (connection : Connection (.accepted other)) :
    ∃ credentials token, connection.slots = .accepted other credentials token := by
  have named := connection.named
  cases captured : connection.slots with
  | healthCheck => simp [captured, Slots.ref] at named
  | accepted owner credentials token =>
      rw [captured, Slots.ref, PeerRef.accepted.injEq] at named
      exact ⟨credentials, token, by rw [named]⟩

/-- The handlers that a peer posts are those of operations that failed. -/
theorem posted_plain {ref : PeerRef} {handler : PeerHandler} (failed : handler.failed = true) :
    (Handler.peer ref handler).plain id = true := by
  cases ref <;> cases handler <;> trivial

theorem framesRead_unmarked (ref : PeerRef) (handler : PeerHandler) :
    ∀ event ∈ ref.framesRead handler, event.mark? id = none := by
  unfold PeerRef.framesRead
  split
  · intro event member
    rw [List.mem_singleton.mp member]
    rfl
  · simp

/-- A peer's handler leaves the other peers alone. -/
theorem runPeer_tame (options : CommonOptions) {other : Nat} (different : other ≠ id)
    (handler : PeerHandler) (turn : Turn) :
    Tame id turn (turn.runPeer options (.accepted other) handler) := by
  unfold runPeer
  split
  · exact .refl id turn
  case h_2 connection alive =>
    obtain ⟨credentials, token, captured⟩ := slots_accepted connection
    have shape := PeerTurn.run_shape options handler connection.peer
    refine ⟨.rfl, by simp [different.symm], .rfl, closable_of_appends (.map ?_ _) rfl, .map ?_ _,
      ?_, .append (framesRead_unmarked _ handler) _⟩
    · intro posted _
      rfl
    · intro posted member
      exact posted_plain (shape.posted posted member)
    · refine Appends.trans (.map ?_ _) (.append ?_ _)
      · intro sent _
        simp [Job.plain, Job.stage?, Job.stops, captured, different]
      · split
        · simp [PeerRef.peerClosed, Job.plain, Job.stage?, Job.stops, different]
        · simp

/-- The pieces of a handler that is about other peers. -/
theorem PeerPiece.tame {options : CommonOptions} {scope : NotificationScope} {handler : Handler}
    {start : Turn} (piece : PeerPiece options scope handler start before after)
    (aside : handler.concerns start.io id = false) : Tame id before after := by
  cases piece with
  | complete completes earned => exact request_tame completes id
  | push other frame => exact post_tame rfl rfl _
  | @release other _ own listed completed =>
      have different : other ≠ id := by
        rintro rfl
        cases own <;> simp_all [Handler.concerns]
      refine (post_tame rfl ?_ _).trans (erasePeer_tame different _)
      simpa [Handler.plain, Handler.finishes, Handler.erases, Handler.stops] using different
  | erase own completed =>
      subst own
      exact erasePeer_tame (by simpa [Handler.concerns] using aside) _
  | dismiss own completed =>
      subst own
      cases aside
  | @send call other data _ own listed =>
      subst own
      have different : other ≠ id := by simpa [Handler.concerns] using aside
      refine ⟨.rfl, rfl, .rfl, ?_, .single ?_ _, .refl _, .single ?_ _⟩
      · simp [sendRequest, emit, Turn.post, Io.mayClose, RequestManager.add, Handler.mayClose,
          different]
      · rfl
      · rfl
  | refuse own => exact enqueue_tame rfl _
  | speak own =>
      subst own
      exact runPeer_tame options (by simpa [Handler.concerns] using aside) _ _
  | @create accept credentials own current =>
      subst own
      have different : before.io.nextPeerId + 1 ≠ id := by simpa [Handler.concerns] using aside
      refine ⟨?_, ?_, ?_, closable_of_appends (.single ?_ _) rfl, .single ?_ _, .refl _,
        .single ?_ _⟩
      · have bound : id ≤ before.io.nextPeerId + 1 ↔ id ≤ before.io.nextPeerId := by omega
        exact bound
      · simp [Turn.post, emit, different.symm]
      · simp [Turn.post, emit, different.symm]
      · rfl
      · rfl
      · simp [Event.mark?, different]

/-! ## The moves of a handler -/

/-- What a piece of a handler means for the life of one peer. -/
def Reaches (calm : Prop) (id : Nat) (base : State) (before after : Turn) : Prop :=
  ∃ more, marks id after.events = marks id before.events ++ more ∧
    Lifecycle.Moves calm ((onto base before).life id) more ((onto base after).life id)

variable {calm : Prop} {base : State}

theorem Reaches.refl (calm : Prop) (id : Nat) (base : State) (turn : Turn) :
    Reaches calm id base turn turn := ⟨[], by simp, .refl _⟩

theorem Reaches.trans {first second third : Turn} (left : Reaches calm id base first second)
    (right : Reaches calm id base second third) : Reaches calm id base first third := by
  obtain ⟨early, marked, moves⟩ := left
  obtain ⟨late, marked', moves'⟩ := right
  exact ⟨early ++ late, by rw [marked', marked, List.append_assoc], moves.trans moves'⟩

theorem silent {turn : Turn} (moves : Lifecycle.Moves calm ((onto base before).life id) []
    ((onto base turn).life id)) (same : turn.events = before.events) :
    Reaches calm id base before turn := ⟨[], by simp [same], moves⟩

theorem Tame.fades (tame : Tame id before after) (base : State) :
    Lifecycle.Fades ((onto base before).life id) ((onto base after).life id) := by
  have posts := tame.posts
  have jobs := tame.jobs
  simp only [Handler.plain, Bool.and_eq_true, Bool.not_eq_true'] at posts
  simp only [Job.plain, Bool.and_eq_true, Bool.not_eq_true', Option.isNone_iff_eq_none] at jobs
  have finishes := posts.any_eq fun handler plain => plain.1.1
  have erases := posts.any_eq fun handler plain => plain.1.2
  have stops := posts.any_eq fun handler plain => plain.2
  have stages := jobs.filterMap_eq fun job plain => plain.1
  have halts := jobs.any_eq fun job plain => plain.2
  refine ⟨?_, ?_, ?_, ?_, ?_, rfl, ?_, ?_, ?_, ?_, ?_⟩
  · exact decide_eq_decide.mpr (and_congr_right fun _ => tame.born)
  · exact congrArg Option.isSome tame.connection
  · exact congrArg (Option.any _) tame.connection
  · exact congrArg (Option.all _) tame.connection
  · exact decide_eq_decide.mpr tame.listed
  · intro closable
    have kept := tame.closable
    simp only [State.life, onto, List.any_append, Bool.or_eq_true] at closable kept ⊢
    tauto
  · simp only [State.life, onto, List.any_append, finishes]
  · simp only [State.life, onto, List.any_append, erases, imp_self]
  · simp only [State.life, onto, List.any_append, stops, halts, imp_self]
  · simp only [State.life, onto, List.filterMap_append, stages]

theorem Tame.reaches (tame : Tame id before after) (calm : Prop) (base : State) :
    Reaches calm id base before after := by
  refine ⟨[], ?_, .single (.fade (tame.fades base))⟩
  rw [List.append_nil]
  exact tame.events.filterMap_eq fun _ unmarked => unmarked

/-- A handler that closes the peer from this side releases it. -/
theorem release_reaches (closable : base.handlers.any (Handler.mayClose id) = true)
    (listed : id ∈ turn.io.peers) :
    Reaches calm id base turn ((turn.post (.peer (.accepted id) (.close true))).erasePeer id) := by
  refine silent ?_ rfl
  refine (Lifecycle.Moves.single (.release ?_ ?_)).fade
    ⟨rfl, rfl, rfl, rfl, ?_, rfl, fun _ => ?_, ?_, fun erasing => ?_, fun stopping => ?_, rfl⟩
  · simp [State.life, onto, closable]
  · exact decide_eq_true listed
  · simp [State.life, onto, erasePeer]
  · simp [State.life, onto, closable]
  · simp [State.life, onto, erasePeer, Turn.post, Handler.finishes]
  · simpa [State.life, onto, erasePeer, Turn.post, Handler.erases] using erasing
  · simpa [State.life, onto, erasePeer, Turn.post, Handler.stops] using stopping

theorem erasePeer_reaches (erasing : base.handlers.any (Handler.erases id) = true)
    (turn : Turn) : Reaches calm id base turn (turn.erasePeer id) := by
  refine silent ?_ rfl
  refine (Lifecycle.Moves.single (.erase ?_)).fade
    ⟨rfl, rfl, rfl, rfl, ?_, rfl, fun closable => closable, rfl, fun erasing => erasing,
      fun stopping => stopping, rfl⟩
  · simp [State.life, onto, erasing]
  · simp [State.life, onto, erasePeer]

theorem dismiss_reaches (stopping : base.handlers.any Handler.stops = true) (turn : Turn) :
    Reaches calm id base turn
      { turn with
        io := { turn.io with peers := [] }
        posts := turn.posts ++
          turn.io.peers.map fun id => .peer (.accepted id) (.close false) } := by
  let cleared := { turn with io := { turn.io with peers := [] } }
  have clearing : Reaches calm id base turn cleared := by
    refine silent ((Lifecycle.Moves.single (.dismiss ?_)).fade
      ⟨rfl, rfl, rfl, rfl, ?_, rfl, fun closable => closable, rfl, fun erasing => erasing,
        fun stopping => stopping, rfl⟩) rfl
    · simp [State.life, onto, stopping]
    · simp [State.life, onto, cleared]
  refine clearing.trans (Tame.reaches ?_ calm base)
  refine ⟨.rfl, rfl, .rfl, closable_of_appends (.map ?_ _) rfl, .map ?_ _, .refl _, .refl _⟩
  · intro other _
    rfl
  · intro other _
    rfl

theorem sendRequest_reaches (closable : base.handlers.any (Handler.mayClose id) = true)
    (call : Nat) (data : Bytes) (turn : Turn) :
    Reaches calm id base turn (turn.sendRequest call id data) := by
  refine ⟨[], by simp [marks, sendRequest, emit, Turn.post, Event.mark?],
    Lifecycle.Moves.fade (.refl _)
      ⟨rfl, rfl, rfl, rfl, rfl, rfl, fun _ => ?_, ?_, fun erasing => ?_, fun stopping => ?_, rfl⟩⟩
  · simp [State.life, onto, closable]
  · simp [State.life, onto, sendRequest, emit, Turn.post, Handler.finishes]
  · simpa [State.life, onto, sendRequest, emit, Turn.post, Handler.erases] using erasing
  · simpa [State.life, onto, sendRequest, emit, Turn.post, Handler.stops] using stopping

/-- The stages of what a handler of the peer reports. -/
theorem stages_signals {handler : PeerHandler} {peer : Peer} {result : PeerTurn}
    (shape : PeerTurn.Shape handler peer result) (id : Nat) (credentials : PeerCredentials)
    (token : Nat) :
    ∃ message failed : Bool,
      (result.signals.map (Job.signal (.accepted id credentials token))).filterMap
          (Job.stage? id) =
        (if !peer.ready && result.peer.ready then [.ready] else []) ++
          ((if message then [.message] else []) ++ (if failed then [.error] else []) ++
            if peer.isOpen && !result.peer.isOpen then [.closed] else []) := by
  obtain ⟨message, error, source, genuine, signals⟩ := shape.signals
  have view : Job.stage? id ∘ Job.signal (.accepted id credentials token) =
      fun sent => some (stageOf sent) := by
    funext sent
    simp [Job.stage?]
  refine ⟨message.isSome, error.isSome, ?_⟩
  rw [List.filterMap_map, view, signals, readySignals, closedSignals]
  have messages : message.toList.filterMap (fun sent => some (stageOf sent)) =
      if message.isSome then [.message] else [] := by
    cases message with
    | none => rfl
    | some sent =>
        obtain ⟨body, read, content⟩ := source sent rfl
        cases sent <;> first | rfl | cases content
  have errors : (error.toList.map Signal.errorOccurred).filterMap
      (fun sent => some (stageOf sent)) = if error.isSome then [.error] else [] := by
    cases error <;> rfl
  simp only [List.filterMap_append, messages, errors, List.append_assoc]
  congr 1
  · split <;> rfl
  · congr 2
    split <;> rfl

/-- The handler of a peer reports in the order of its life. -/
theorem runPeer_reaches (options : CommonOptions) {handler : PeerHandler}
    (queued : .peer (.accepted id) handler ∈ base.handlers) {turn : Turn}
    (punctual : calm → ∀ connection, turn.io.connections (.accepted id) = some connection →
      connection.peer.ready = false → PeerTurn.raises connection.peer handler = true →
      connection.peer.isOpen = true) :
    Reaches calm id base turn (turn.runPeer options (.accepted id) handler) := by
  unfold runPeer
  split
  · exact .refl calm id base turn
  case h_2 connection alive =>
    obtain ⟨credentials, token, captured⟩ := slots_accepted connection
    have shape := PeerTurn.run_shape options handler connection.peer
    have ends : handler = .close true →
        (PeerTurn.run options handler { peer := connection.peer }).peer.isOpen = false := by
      rintro rfl
      exact PeerTurn.run_close_isOpen options true connection.peer
    dsimp only
    generalize PeerTurn.run options handler { peer := connection.peer } = result at shape ends ⊢
    obtain ⟨message, failed, stages⟩ := stages_signals shape id credentials token
    have living : ((onto base turn).life id).alive = true := by
      simp [State.life, onto, alive]
    have isOpen : ((onto base turn).life id).isOpen = connection.peer.isOpen := by
      simp [State.life, onto, alive]
    have ready : ((onto base turn).life id).ready = connection.peer.ready := by
      simp [State.life, onto, alive]
    have unready : (!connection.peer.ready && result.peer.ready) = true →
        ((onto base turn).life id).ready = false := by
      rw [ready, Bool.and_eq_true, Bool.not_eq_true']
      exact And.left
    have opened : (!connection.peer.ready && result.peer.ready) = true → calm →
        ((onto base turn).life id).isOpen = true := by
      rw [isOpen, Bool.and_eq_true, Bool.not_eq_true', shape.ready]
      rintro ⟨unready, raised⟩ calm
      exact punctual calm connection alive unready (by simpa [unready] using raised)
    have shutting : (connection.peer.isOpen && !result.peer.isOpen) = true →
        ((onto base turn).life id).isOpen = true := by
      rw [isOpen, Bool.and_eq_true]
      exact And.left
    have closing : decide (handler = .close true) = true →
        ((onto base turn).life id).closing = true ∧
          (((onto base turn).life id).isOpen &&
            !(connection.peer.isOpen && !result.peer.isOpen)) = false := by
      intro finishing
      have finishing := of_decide_eq_true finishing
      rw [isOpen, ends finishing]
      refine ⟨?_, by cases connection.peer.isOpen <;> rfl⟩
      simp only [State.life, onto, List.any_append, Bool.or_eq_true]
      exact .inl (List.any_eq_true.mpr ⟨_, queued, by simp [finishing, Handler.finishes]⟩)
    have moves := Lifecycle.Moves.handled living message failed unready opened shutting closing
    have posted : Appends (fun posted => posted.plain id = true) turn.posts
        (turn.posts ++ result.posted.map (.peer (.accepted id))) := by
      refine .map ?_ _
      exact fun posted member => posted_plain (shape.posted posted member)
    simp only [Handler.plain, Bool.and_eq_true, Bool.not_eq_true'] at posted
    have finishes := posted.any_eq fun handler plain => plain.1.1
    have erases := posted.any_eq fun handler plain => plain.1.2
    have stops := posted.any_eq fun handler plain => plain.2
    have completed := shape.completed
    refine ⟨[], ?_, moves.fade ⟨rfl, ?_, ?_, ?_, rfl, rfl, ?_, ?_, ?_, ?_, ?_⟩⟩
    · have unmarked : (PeerRef.framesRead (.accepted id) handler).filterMap (Event.mark? id) = [] :=
        List.filterMap_eq_nil_iff.mpr (framesRead_unmarked _ handler)
      simp [marks, unmarked]
    · simp [State.life, onto, alive]
    · have kept := shape.isOpen
      rw [isOpen]
      simp only [State.life, onto, Function.update_self, Option.any_some]
      cases opened : result.peer.isOpen with
      | false => simp
      | true => simp [kept opened]
    · have kept := shape.ready
      rw [ready]
      simp only [State.life, onto, Function.update_self, Option.all_some]
      cases unready : connection.peer.ready with
      | false => simp
      | true => simp [kept, unready]
    · simp only [State.life, onto, Io.mayClose, List.any_append, List.any_map]
      simp [Handler.mayClose]
    · simp only [State.life, onto, List.any_append, finishes]
    · simp only [State.life, onto, List.any_append, erases, imp_self]
    · simp only [State.life, onto, List.any_append, stops]
      have signals : (result.signals.map (Job.signal connection.slots)).any Job.stops = false := by
        simp [Job.stops]
      have closed : (if result.completed then PeerRef.peerClosed (.accepted id) else []).any
          Job.stops = false := by
        split <;> simp [PeerRef.peerClosed, Job.stops]
      simp [signals, closed]
    · have closed : (if result.completed then PeerRef.peerClosed (.accepted id) else []).filterMap
          (Job.stage? id) = if decide (handler = .close true) then [.peerClosed] else [] := by
        rw [completed]
        split <;> simp [PeerRef.peerClosed, Job.stage?]
      simp [State.life, onto, captured, stages, closed, List.append_assoc]

/-- The handler does not declare a peer ready whose socket is closed already. -/
def punctual (io : Io) : Handler → Bool
  | .peer (.accepted id) handler =>
      (io.connections (.accepted id)).all fun connection =>
        connection.peer.ready || connection.peer.isOpen ||
          !PeerTurn.raises connection.peer handler
  | _ => true

/-- What a piece of the peer's own handlers means for its life. -/
theorem PeerPiece.reaches {options : CommonOptions} {scope : NotificationScope}
    {handler : Handler} {start : Turn}
    (piece : PeerPiece options scope handler start before after)
    (queued : handler ∈ base.handlers)
    (punctual : calm → punctual start.io handler = true)
    (concerned : handler.concerns start.io id = true) : Reaches calm id base before after := by
  have among : ∀ {test : Handler → Bool}, test handler = true → base.handlers.any test = true :=
    fun holds => List.any_eq_true.mpr ⟨handler, queued, holds⟩
  cases piece with
  | complete completes earned => exact (request_tame completes id).reaches calm base
  | push other frame => exact (post_tame rfl rfl _).reaches calm base
  | release own listed completed =>
      cases own with
      | closePeer =>
          obtain rfl := of_decide_eq_true concerned
          exact release_reaches (among (by simp [Handler.mayClose])) listed
      | requestTimer aimed =>
          simp only [Handler.concerns, aimed, beq_iff_eq, Option.some.injEq] at concerned
          subst concerned
          exact release_reaches (among (by simp [Handler.mayClose, aimed])) listed
  | erase own completed =>
      subst own
      obtain rfl := of_decide_eq_true concerned
      exact erasePeer_reaches (among (by simp [Handler.erases])) _
  | dismiss own completed =>
      subst own
      exact dismiss_reaches (among rfl) _
  | send own listed =>
      subst own
      obtain rfl := of_decide_eq_true concerned
      exact sendRequest_reaches (among (by simp [Handler.mayClose])) _ _ _
  | refuse own => exact (enqueue_tame rfl _).reaches calm base
  | speak own =>
      subst own
      obtain rfl := of_decide_eq_true concerned
      refine runPeer_reaches options queued fun calm connection alive unready raises => ?_
      have timely := punctual calm
      simpa [Turn.punctual, alive, unready, raises] using timely
  | create own current =>
      subst own
      obtain rfl := of_decide_eq_true concerned
      refine Reaches.trans ?_ ((post_tame rfl rfl _).reaches calm base)
      refine ⟨[.accepted], by simp [marks, emit, Event.mark?], ?_⟩
      refine (Lifecycle.Moves.single (.create ?_)).fade
        ⟨?_, ?_, ?_, ?_, ?_, rfl, fun closable => closable, rfl, fun erasing => erasing,
          fun stopping => stopping, rfl⟩
      all_goals simp [State.life, onto, emit]

/-- What any handler means for the life of one peer. -/
theorem run_reaches (options : CommonOptions) (scope : NotificationScope)
    (outcome : BindOutcome) {handler : Handler} (queued : handler ∈ base.handlers) {turn : Turn}
    (punctual : calm → punctual turn.io handler = true) :
    Reaches calm id base turn (turn.run options scope outcome handler) := by
  refine (run_pieces options scope outcome handler turn).effect (.refl calm id base) .trans ?_
  intro before after piece
  rcases piece.sort with internal | piece
  · exact (internal.tame id).reaches calm base
  · cases concerned : handler.concerns turn.io id with
    | true => exact piece.reaches queued punctual concerned
    | false => exact (piece.tame concerned).reaches calm base

/-- The handler that closes a peer with a completion queues its report. -/
theorem run_reports (options : CommonOptions) (scope : NotificationScope)
    (outcome : BindOutcome) {handler : Handler} (finishes : handler.finishes id = true)
    {turn : Turn} (alive : (turn.io.connections (.accepted id)).isSome) :
    .peerClosed id ∈ (turn.run options scope outcome handler).jobs := by
  obtain rfl : handler = .peer (.accepted id) (.close true) := by
    cases handler with
    | peer ref handler =>
        cases ref with
        | probe => cases finishes
        | accepted other =>
            cases handler with
            | close completion =>
                cases completion with
                | false => cases finishes
                | true => rw [of_decide_eq_true finishes]
            | _ => cases finishes
    | _ => cases finishes
  obtain ⟨connection, alive⟩ := Option.isSome_iff_exists.mp alive
  have completed := (PeerTurn.run_shape options (.close true) connection.peer).completed
  rw [decide_eq_true rfl] at completed
  simp [run, runPeer, alive, completed, PeerRef.peerClosed]

end Turn

/-! ## The moves of a step -/

/-- The handler at the head of the queue is done. -/
theorem pop_moves {calm : Prop} {id : Nat} {state : State} {handler : Handler}
    {rest : List Handler} (queued : state.handlers = handler :: rest)
    (reported : handler.finishes id = true → .peerClosed ∈ (state.life id).stages) :
    Lifecycle.Moves calm (state.life id) [] (State.life id { state with handlers := rest }) := by
  have fades : ∀ {life : Lifecycle}, life = { state.life id with closing := life.closing } →
      life.closing = rest.any (Handler.finishes id) →
      Lifecycle.Fades life (State.life id { state with handlers := rest }) := by
    intro life same closing
    rw [same]
    refine ⟨rfl, rfl, rfl, rfl, rfl, rfl, fun closable => ?_, closing.symm, fun erasing => ?_,
      fun stopping => ?_, rfl⟩
    · simp only [State.life, queued, List.any_cons, Bool.or_eq_true] at closable ⊢
      tauto
    · simp only [State.life, queued, List.any_cons, Bool.or_eq_true] at erasing ⊢
      exact .inr erasing
    · simp only [State.life, queued, List.any_cons, Bool.or_eq_true] at stopping ⊢
      tauto
  have closing : (state.life id).closing =
      (handler.finishes id || rest.any (Handler.finishes id)) := by
    simp [State.life, queued]
  cases finishes : handler.finishes id with
  | false => exact .single (.fade (fades rfl (by rw [closing, finishes, Bool.false_or])))
  | true =>
      cases still : rest.any (Handler.finishes id) with
      | true => exact .single (.fade (fades rfl (by rw [closing, finishes, still, Bool.true_or])))
      | false =>
          exact (Lifecycle.Moves.single (.settle (reported finishes))).fade (fades rfl still.symm)

theorem Turn.onto_start (state : State) : Turn.onto state { io := state.io } = state := by
  simp [Turn.onto]

/-- The moves of a handler, which leaves the queue. -/
theorem handler_moves {calm : Prop} {id : Nat} {phase : Lifecycle.Phase} {state : State}
    (traced : Lifecycle.Traced phase (state.life id)) (options : CommonOptions)
    {handler : Handler} {rest : List Handler} (queued : state.handlers = handler :: rest)
    (outcome : BindOutcome) (punctual : calm → Turn.punctual state.io handler = true) :
    let turn := Turn.run options state.dispatcher.notificationScope outcome handler
      { io := state.io }
    Lifecycle.Moves calm (state.life id) (marks id turn.events)
      (State.life id { state with
        io := turn.io
        handlers := rest ++ turn.posts
        jobs := state.jobs ++ turn.jobs }) := by
  intro turn
  have listed : handler ∈ state.handlers := by simp [queued]
  have reaches : Turn.Reaches calm id state { io := state.io } turn :=
    Turn.run_reaches options _ outcome listed punctual
  obtain ⟨more, marked, moves⟩ := reaches
  obtain rfl : marks id turn.events = more := marked
  rw [Turn.onto_start] at moves
  have reported : handler.finishes id = true →
      .peerClosed ∈ ((Turn.onto state turn).life id).stages := by
    intro finishes
    have closing : (state.life id).closing = true :=
      List.any_eq_true.mpr ⟨handler, listed, finishes⟩
    have alive : (state.io.connections (.accepted id)).isSome :=
      traced.alive (.inr (.inl closing))
    refine List.mem_filterMap.mpr ⟨.peerClosed id, List.mem_append_right _ ?_, ?_⟩
    · exact Turn.run_reports options _ outcome finishes alive
    · simp [Job.stage?]
  have queued' : (Turn.onto state turn).handlers = handler :: (rest ++ turn.posts) := by
    simp [Turn.onto, queued]
  have done := moves.trans (pop_moves queued' reported)
  rw [List.append_nil] at done
  exact done
/-! ### Jobs -/

/-- What a job does that is no work for the peer. -/
structure Ignored (id : Nat) (before after : Dispatcher) (effect : Effect) : Prop where
  exposed : id ∈ after.exposedPeerIds ↔ id ∈ before.exposedPeerIds
  posts : ∀ handler ∈ effect.posts, handler.mayClose id = false ∧ handler.finishes id = false ∧
    handler.erases id = false
  next : ∀ job ∈ effect.next, job.stage? id = none
  jobs : ∀ job ∈ effect.jobs, job.stage? id = none
  events : marks id effect.events = []

theorem Job.stage?_of_isSession {job : Job} (session : job.isSession = true) (id : Nat) :
    job.stage? id = none := by
  cases job <;> first | rfl | cases session

theorem SessionEffect.ignored {effect : Effect} (session : SessionEffect effect) {id : Nat}
    {before after : Dispatcher} (same : after.exposedPeerIds = before.exposedPeerIds) :
    Ignored id before after effect where
  exposed := by rw [same]
  posts handler member := by
    have posted := session.posts handler member
    cases handler <;> first | exact ⟨rfl, rfl, rfl⟩ | cases posted
  next job member := Job.stage?_of_isSession (session.next job member) id
  jobs job member := Job.stage?_of_isSession (session.jobs job member) id
  events := by rw [session.events]; rfl

theorem perform_session_exposed {job : Job} (session : job.isSession = true)
    (visible : job ≠ .clearExposedPeerIds) (dispatcher : Dispatcher) (verdict : Bool) :
    (perform dispatcher job verdict).1.exposedPeerIds = dispatcher.exposedPeerIds := by
  cases job <;> first
    | rfl
    | exact absurd rfl visible
    | (simp only [perform]; split <;> rfl)
    | cases session

theorem perform_session_ignored {id : Nat} {job : Job} (session : job.isSession = true)
    (visible : job ≠ .clearExposedPeerIds) (dispatcher : Dispatcher) (verdict : Bool) :
    Ignored id dispatcher (perform dispatcher job verdict).1
      (perform dispatcher job verdict).2 :=
  (perform_session session dispatcher verdict).ignored
    (perform_session_exposed session visible dispatcher verdict)

theorem Ignored.of_ifExposed {id other : Nat} (dispatcher : Dispatcher)
    {event : Event} (unmarked : event.mark? id = none) :
    Ignored id dispatcher (ifExposed dispatcher other event).1
      (ifExposed dispatcher other event).2 := by
  refine ⟨.rfl, nofun, nofun, nofun, ?_⟩
  simp only [ifExposed]
  split <;> simp [marks, unmarked]

theorem perform_ignored {id : Nat} {job : Job} (ignored : job.stage? id = none)
    (visible : job ≠ .clearExposedPeerIds) (dispatcher : Dispatcher) (verdict : Bool) :
    Ignored id dispatcher (perform dispatcher job verdict).1
      (perform dispatcher job verdict).2 := by
  cases job with
  | signal slots sent =>
      cases slots with
      | accepted other credentials token =>
          have different : other ≠ id := by simpa [Job.stage?] using ignored
          cases sent <;> constructor <;>
            simp [perform, slot, acceptedSlot, Job.stage?, Handler.mayClose, Handler.finishes,
              Handler.erases, marks, different]
      | healthCheck probe =>
          simp only [perform, slot, healthCheckSlot]
          split
          · cases sent <;> constructor <;>
              simp [Handler.mayClose, Handler.finishes, Handler.erases, marks]
          · constructor <;> simp [marks]
  | notify token notice =>
      simp only [perform]
      split
      · cases notice with
        | ready other credentials =>
            have different : other ≠ id := by simpa [Job.stage?] using ignored
            cases verdict <;> constructor <;>
              simp [notify, Handler.mayClose, Handler.finishes, Handler.erases, marks,
                Event.mark?, different, different.symm]
        | _ => constructor <;> simp [notify, Job.stage?, marks, Event.mark?]
      · constructor <;> simp [marks]
  | enqueuePeerErrorOccurred other errorCode =>
      have different : other ≠ id := by simpa [Job.stage?] using ignored
      constructor <;> simp [perform, Job.stage?, marks, different]
  | enqueuePeerClosed other =>
      have different : other ≠ id := by simpa [Job.stage?] using ignored
      constructor <;> simp [perform, Job.stage?, marks, different]
  | received other buffer =>
      have different : other ≠ id := by simpa [Job.stage?] using ignored
      exact .of_ifExposed dispatcher (by simp [Event.mark?, different])
  | requestReceived other requestId buffer =>
      have different : other ≠ id := by simpa [Job.stage?] using ignored
      exact .of_ifExposed dispatcher (by simp [Event.mark?, different])
  | peerErrorOccurred other errorCode =>
      have different : other ≠ id := by simpa [Job.stage?] using ignored
      exact .of_ifExposed dispatcher (by simp [Event.mark?, different])
  | peerClosed other =>
      have different : other ≠ id := by simpa [Job.stage?] using ignored
      refine ⟨by simp [perform, different.symm], by simp [perform], by simp [perform],
        by simp [perform], ?_⟩
      simp only [perform]
      split <;> simp [marks, Event.mark?, different]
  | requestCallback call errorCode data => constructor <;> simp [perform, marks, Event.mark?]
  | _ => exact perform_session_ignored rfl visible dispatcher verdict

/-- The state after the job at the head of the queue. -/
def State.performed (state : State) (rest : List Job) (job : Job) (verdict : Bool) : State :=
  let (dispatcher, output) := perform state.dispatcher job verdict
  { state with
    dispatcher
    handlers := state.handlers ++ output.posts
    jobs := output.next ++ rest ++ output.jobs
    delayed := state.delayed ++ output.delayed }

section

variable {calm : Prop} {id : Nat} {state : State} {job : Job} {rest : List Job} {verdict : Bool}

theorem stopping_of_performed (id : Nat) (verdict : Bool) (queued : state.jobs = job :: rest)
    (stopping : (State.life id (state.performed rest job verdict)).stopping = true) :
    (state.life id).stopping = true := by
  cases stops : job.stops with
  | true => simp [State.life, queued, stops]
  | false =>
      obtain ⟨posts, next, jobs, delayed⟩ := perform_unstopped stops state.dispatcher verdict
      simp only [State.life, State.performed, queued, List.any_append, List.any_cons,
        Bool.or_eq_true, List.any_eq_true] at stopping ⊢
      grind

/-- A job that is no work for the peer. -/
theorem ignored_moves (queued : state.jobs = job :: rest) (ignored : job.stage? id = none)
    (visible : job ≠ .clearExposedPeerIds) :
    Lifecycle.Moves calm (state.life id) []
      (State.life id (state.performed rest job verdict)) := by
  have effect := perform_ignored ignored visible state.dispatcher verdict
  have none : ∀ {jobs : List Job}, (∀ job ∈ jobs, job.stage? id = none) →
      jobs.filterMap (Job.stage? id) = [] := fun ofJobs => List.filterMap_eq_nil_iff.mpr ofJobs
  have next := none effect.next
  have jobs := none effect.jobs
  refine .single (.fade ⟨rfl, rfl, rfl, rfl, rfl, ?_, fun closable => ?_, ?_,
    fun erasing => ?_, stopping_of_performed id verdict queued, ?_⟩)
  · exact decide_eq_decide.mpr effect.exposed
  · have posts := fun handler member => (effect.posts handler member).1
    simp only [State.life, State.performed, List.any_append, Bool.or_eq_true, List.any_eq_true]
      at closable ⊢
    grind
  · have posts : (perform state.dispatcher job verdict).2.posts.any (Handler.finishes id) = false :=
      List.any_eq_false.mpr fun handler member => by simp [(effect.posts handler member).2.1]
    simp [State.life, State.performed, posts]
  · have posts := fun handler member => (effect.posts handler member).2.2
    simp only [State.life, State.performed, List.any_append, Bool.or_eq_true, List.any_eq_true]
      at erasing ⊢
    grind
  · simp [State.life, State.performed, queued, ignored, next, jobs]

/-- The work for the peer at the head of its queue. -/
theorem stages_of_queued (id : Nat) (queued : state.jobs = job :: rest) {stage : Stage}
    (work : job.stage? id = some stage) :
    (state.life id).stages = stage :: rest.filterMap (Job.stage? id) := by
  simp [State.life, queued, work]

theorem signal_moves {credentials : PeerCredentials} {token : Nat} {sent : Signal}
    (queued : state.jobs = .signal (.accepted id credentials token) sent :: rest) :
    Lifecycle.Moves calm (state.life id) []
      (State.life id (state.performed rest (.signal (.accepted id credentials token) sent)
        verdict)) := by
  have work : (Job.signal (.accepted id credentials token) sent).stage? id =
      some (stageOf sent) := by
    simp [Job.stage?]
  have head := stages_of_queued id queued work
  have stopping := stopping_of_performed id verdict queued
  cases sent with
  | ready =>
      refine (Lifecycle.Moves.single (.takeReady head)).fade
        ⟨rfl, rfl, rfl, rfl, rfl, rfl, ?_, ?_, ?_, stopping, ?_⟩
      all_goals simp [State.life, State.performed, perform, slot, acceptedSlot, Job.stage?]
  | errorOccurred errorCode =>
      refine (Lifecycle.Moves.single (.takeError head)).fade
        ⟨rfl, rfl, rfl, rfl, rfl, rfl, ?_, ?_, ?_, stopping, ?_⟩
      all_goals
        simp [State.life, State.performed, perform, slot, acceptedSlot, Job.stage?,
          Handler.mayClose, Handler.finishes, Handler.erases]
  | closed =>
      refine (Lifecycle.Moves.single (.takeClosed head)).fade
        ⟨rfl, rfl, rfl, rfl, rfl, rfl, ?_, ?_, ?_, stopping, ?_⟩
      all_goals
        simp [State.life, State.performed, perform, slot, acceptedSlot, Job.stage?,
          Handler.mayClose, Handler.finishes]
  | received buffer =>
      refine (Lifecycle.Moves.single (.takeMessage head true)).fade
        ⟨rfl, rfl, rfl, rfl, rfl, rfl, ?_, ?_, ?_, stopping, ?_⟩
      all_goals simp [State.life, State.performed, perform, slot, acceptedSlot, Job.stage?]
  | requestReceived requestId buffer =>
      refine (Lifecycle.Moves.single (.takeMessage head true)).fade
        ⟨rfl, rfl, rfl, rfl, rfl, rfl, ?_, ?_, ?_, stopping, ?_⟩
      all_goals simp [State.life, State.performed, perform, slot, acceptedSlot, Job.stage?]
  | responseReceived requestId buffer =>
      refine (Lifecycle.Moves.single (.takeMessage head false)).fade
        ⟨rfl, rfl, rfl, rfl, rfl, rfl, ?_, ?_, ?_, stopping, ?_⟩
      all_goals
        simp [State.life, State.performed, perform, slot, acceptedSlot, Handler.mayClose,
          Handler.finishes, Handler.erases]
  | healthCheckResponseReceived =>
      refine (Lifecycle.Moves.single (.takeMessage head false)).fade
        ⟨rfl, rfl, rfl, rfl, rfl, rfl, ?_, ?_, ?_, stopping, ?_⟩
      all_goals simp [State.life, State.performed, perform, slot, acceptedSlot]

theorem ready_moves {credentials : PeerCredentials} {token : Nat}
    (queued : state.jobs = .notify token (.ready id credentials) :: rest) :
    Lifecycle.Moves calm (state.life id)
      (marks id (perform state.dispatcher (.notify token (.ready id credentials)) verdict).2.events)
      (State.life id (state.performed rest (.notify token (.ready id credentials)) verdict)) := by
  have work : (Job.notify token (.ready id credentials)).stage? id = some .verify := by
    simp [Job.stage?]
  have head := stages_of_queued id queued work
  have stopping := stopping_of_performed id verdict queued
  by_cases current : state.dispatcher.notificationScope.isCurrent token = true
  case neg =>
    have silent : marks id
        (perform state.dispatcher (.notify token (.ready id credentials)) verdict).2.events = [] := by
      simp only [perform, if_neg current]
      rfl
    rw [silent]
    refine (Lifecycle.Moves.single (.discard head)).fade
      ⟨rfl, rfl, rfl, rfl, rfl, ?_, ?_, ?_, ?_, stopping, ?_⟩
    all_goals simp only [State.life, State.performed, perform, if_neg current]
    all_goals simp
  case pos =>
    cases verdict with
    | true =>
        have announced : marks id
            (perform state.dispatcher (.notify token (.ready id credentials)) true).2.events =
              [.verified true, .connected] := by
          simp only [perform, if_pos current]
          simp [notify, marks, Event.mark?]
        rw [announced]
        refine (Lifecycle.Moves.single (.expose head)).fade
          ⟨rfl, rfl, rfl, rfl, rfl, ?_, ?_, ?_, ?_, stopping, ?_⟩
        all_goals simp only [State.life, State.performed, perform, if_pos current]
        all_goals simp [notify]
    | false =>
        have announced : marks id
            (perform state.dispatcher (.notify token (.ready id credentials)) false).2.events =
              [.verified false] := by
          simp only [perform, if_pos current]
          simp [notify, marks, Event.mark?]
        rw [announced]
        refine (Lifecycle.Moves.single (.reject head)).fade
          ⟨rfl, rfl, rfl, rfl, rfl, ?_, ?_, ?_, ?_, stopping, ?_⟩
        all_goals simp only [State.life, State.performed, perform, if_pos current]
        all_goals simp [notify, Handler.finishes, Handler.erases]

theorem deliver_moves {event : Event} (queued : state.jobs = job :: rest)
    (work : job.stage? id = some .deliver)
    (effect : perform state.dispatcher job verdict = ifExposed state.dispatcher id event)
    (mark : event.mark? id = some .data) :
    Lifecycle.Moves calm (state.life id)
      (marks id (perform state.dispatcher job verdict).2.events)
      (State.life id (state.performed rest job verdict)) := by
  have head := stages_of_queued id queued work
  have stopping := stopping_of_performed id verdict queued
  have said : marks id (perform state.dispatcher job verdict).2.events =
      if (state.life id).exposed then [.data] else [] := by
    rw [effect]
    simp only [ifExposed, State.life, decide_eq_true_eq]
    split <;> simp [marks, mark]
  rw [said]
  refine (Lifecycle.Moves.single (.deliver head)).fade
    ⟨rfl, rfl, rfl, rfl, rfl, ?_, ?_, ?_, ?_, stopping, ?_⟩
  all_goals simp [State.life, State.performed, effect, ifExposed]

theorem peerClosed_moves (queued : state.jobs = .peerClosed id :: rest) :
    Lifecycle.Moves calm (state.life id)
      (marks id (perform state.dispatcher (.peerClosed id) verdict).2.events)
      (State.life id (state.performed rest (.peerClosed id) verdict)) := by
  have work : (Job.peerClosed id).stage? id = some .peerClosed := by simp [Job.stage?]
  have head := stages_of_queued id queued work
  have stopping := stopping_of_performed id verdict queued
  have said : marks id (perform state.dispatcher (.peerClosed id) verdict).2.events =
      if (state.life id).exposed then [.closed] else [] := by
    simp only [perform, State.life, decide_eq_true_eq]
    split <;> simp [marks, Event.mark?]
  rw [said]
  refine (Lifecycle.Moves.single (.peerClosed head)).fade
    ⟨rfl, rfl, rfl, rfl, rfl, ?_, ?_, ?_, ?_, stopping, ?_⟩
  all_goals simp [State.life, State.performed, perform]

theorem enqueue_moves {signalStage notice : Stage} {later : Job}
    (queued : state.jobs = job :: rest) (work : job.stage? id = some signalStage)
    (effect : perform state.dispatcher job verdict = (state.dispatcher, { jobs := [later] }))
    (next : later.stage? id = some notice)
    (move : ∀ {life : Lifecycle} {rest : List Stage}, life.stages = signalStage :: rest →
      Lifecycle.Move calm life [] { life with stages := rest ++ [notice] }) :
    Lifecycle.Moves calm (state.life id)
      (marks id (perform state.dispatcher job verdict).2.events)
      (State.life id (state.performed rest job verdict)) := by
  have head := stages_of_queued id queued work
  have stopping := stopping_of_performed id verdict queued
  have silent : marks id (perform state.dispatcher job verdict).2.events = [] := by
    rw [effect]
    rfl
  rw [silent]
  refine (Lifecycle.Moves.single (move head)).fade
    ⟨rfl, rfl, rfl, rfl, rfl, ?_, ?_, ?_, ?_, stopping, ?_⟩
  all_goals simp [State.life, State.performed, effect, next]

theorem hide_moves (queued : state.jobs = .clearExposedPeerIds :: rest) :
    Lifecycle.Moves calm (state.life id) []
      (State.life id (state.performed rest .clearExposedPeerIds verdict)) := by
  have stops : (state.life id).stopping = true := by simp [State.life, queued, Job.stops]
  have stopping := stopping_of_performed id verdict queued
  refine (Lifecycle.Moves.single (.hide stops)).fade
    ⟨rfl, rfl, rfl, rfl, rfl, ?_, ?_, ?_, ?_, stopping, ?_⟩
  all_goals simp [State.life, State.performed, perform, queued, Job.stage?, List.filterMap_cons]

/-- The moves of any job. -/
theorem job_moves (queued : state.jobs = job :: rest) :
    Lifecycle.Moves calm (state.life id)
      (marks id (perform state.dispatcher job verdict).2.events)
      (State.life id (state.performed rest job verdict)) := by
  by_cases visible : job = .clearExposedPeerIds
  · subst visible
    exact hide_moves queued
  by_cases idle : job.stage? id = none
  · have ignored := perform_ignored idle visible state.dispatcher verdict
    rw [ignored.events]
    exact ignored_moves queued idle visible
  have own : ∀ {owner : Nat} {stage : Stage}, ¬ (if owner = id then some stage else none) = none →
      owner = id := by
    intro owner stage work
    by_contra other
    exact work (if_neg other)
  cases job with
  | signal slots sent =>
      cases slots with
      | healthCheck probe => exact absurd rfl idle
      | accepted owner credentials token =>
          obtain rfl := own idle
          have silent : marks owner (perform state.dispatcher
              (.signal (.accepted owner credentials token) sent) verdict).2.events = [] := by
            cases sent <;> rfl
          rw [silent]
          exact signal_moves queued
  | notify token notice =>
      cases notice with
      | ready owner credentials =>
          obtain rfl := own idle
          exact ready_moves queued
      | _ => exact absurd rfl idle
  | enqueuePeerErrorOccurred owner errorCode =>
      obtain rfl := own idle
      exact enqueue_moves queued (by simp [Job.stage?]) rfl (by simp [Job.stage?]) .reportError
  | enqueuePeerClosed owner =>
      obtain rfl := own idle
      exact enqueue_moves queued (by simp [Job.stage?]) rfl (by simp [Job.stage?]) .reportClosed
  | received owner buffer =>
      obtain rfl := own idle
      exact deliver_moves queued (by simp [Job.stage?]) rfl (by simp [Event.mark?])
  | requestReceived owner requestId buffer =>
      obtain rfl := own idle
      exact deliver_moves queued (by simp [Job.stage?]) rfl (by simp [Event.mark?])
  | peerErrorOccurred owner errorCode =>
      obtain rfl := own idle
      exact deliver_moves queued (by simp [Job.stage?]) rfl (by simp [Event.mark?])
  | peerClosed owner =>
      obtain rfl := own idle
      exact peerClosed_moves queued
  | _ => exact absurd rfl idle

end

/-! ### Steps and runs -/

/-- What the environment may do in a calm run: it does not stop the server, and
closes and asks only peers that are exposed. -/
def Modest (state : State) : Input → Prop
  | .asyncStop => False
  | .asyncClosePeer id => id ∈ state.dispatcher.exposedPeerIds
  | .asyncRequest _ id _ => id ∈ state.dispatcher.exposedPeerIds
  | _ => True

instance (state : State) (input : Input) : Decidable (Modest state input) :=
  match input with
  | .asyncStop => .isFalse id
  | .asyncClosePeer id => inferInstanceAs (Decidable (id ∈ state.dispatcher.exposedPeerIds))
  | .asyncRequest _ id _ => inferInstanceAs (Decidable (id ∈ state.dispatcher.exposedPeerIds))
  | .asyncStart => .isTrue trivial
  | .asyncSend _ _ => .isTrue trivial
  | .asyncRespond _ _ _ => .isTrue trivial
  | .acceptCompletes _ => .isTrue trivial
  | .peerCompletes _ _ => .isTrue trivial
  | .requestExpires _ => .isTrue trivial
  | .healthCheckExpires _ => .isTrue trivial
  | .healthCheckConnects _ _ => .isTrue trivial
  | .destroy _ => .isTrue trivial

/-- A piece of work from outside that does not concern the peer. -/
theorem post_moves {calm : Prop} {id : Nat} {state : State} {handler : Handler}
    (harmless : handler.mayClose id = false) (plain : handler.plain id = true) :
    Lifecycle.Moves calm (state.life id) [] ((post handler state).life id) := by
  simp only [Handler.plain, Bool.and_eq_true, Bool.not_eq_true'] at plain
  refine .single (.fade ⟨rfl, rfl, rfl, rfl, rfl, rfl, ?_, ?_, ?_, ?_, rfl⟩)
  · simp [State.life, post, harmless]
  · simp [State.life, post, plain.1.1]
  · simp [State.life, post, plain.1.2]
  · simp [State.life, post, plain.2]

/-- A call that may come to close the peer. -/
theorem ask_moves {calm : Prop} {id : Nat} {state : State} {handler : Handler}
    (asked : calm → handler.mayClose id = true → id ∈ state.dispatcher.exposedPeerIds)
    (plain : handler.plain id = true) :
    Lifecycle.Moves calm (state.life id) [] ((post handler state).life id) := by
  cases harmless : handler.mayClose id with
  | false => exact post_moves harmless plain
  | true =>
      simp only [Handler.plain, Bool.and_eq_true, Bool.not_eq_true'] at plain
      refine (Lifecycle.Moves.single (.ask fun calm => ?_)).fade
        ⟨rfl, rfl, rfl, rfl, rfl, rfl, fun _ => rfl, ?_, ?_, ?_, rfl⟩
      · exact decide_eq_true (asked calm harmless)
      · simp [State.life, post, plain.1.1]
      · simp [State.life, post, plain.1.2]
      · simp [State.life, post, plain.2]

/-- A completed operation of a peer. -/
theorem peerCompletes_moves {calm : Prop} {id : Nat} {state : State} {ref : PeerRef}
    {connection : Connection ref} {completion : PeerCompletion} {peer : Peer}
    {handler : PeerHandler} (alive : state.io.connections ref = some connection)
    (completes : connection.peer.complete? completion = some (peer, handler)) :
    Lifecycle.Moves calm (state.life id) []
      ((post (.peer ref handler)
        { state with
          io := { state.io with
            connections := Function.update state.io.connections ref
              (some { connection with peer }) } }).life id) := by
  obtain ⟨isOpen, ready, other⟩ := Peer.complete?_keeps completes
  have plain : (Handler.peer ref handler).finishes id = false := by
    cases ref with
    | probe => rfl
    | accepted =>
        cases handler with
        | close completion => exact absurd rfl (other completion)
        | _ => rfl
  refine .single (.fade ⟨rfl, ?_, ?_, ?_, rfl, rfl, ?_, ?_, ?_, ?_, rfl⟩)
  · by_cases own : ref = .accepted id
    · subst own
      simp [State.life, post, alive]
    · simp [State.life, post, Function.update_of_ne (Ne.symm own)]
  · by_cases own : ref = .accepted id
    · subst own
      simp [State.life, post, alive, isOpen]
    · simp [State.life, post, Function.update_of_ne (Ne.symm own)]
  · by_cases own : ref = .accepted id
    · subst own
      simp [State.life, post, alive, ready]
    · simp [State.life, post, Function.update_of_ne (Ne.symm own)]
  · simp [State.life, post, Handler.mayClose, Io.mayClose]
  · simp [State.life, post, plain]
  · simp [State.life, post, Handler.erases]
  · simp [State.life, post, Handler.stops]

/-- The peer object takes its signals with it, and nothing else. -/
theorem stage?_dropped (id : Nat) (job : Job) :
    (if !job.isOf (.accepted id) then job.stage? id else none) =
      (job.stage? id).filter fun stage => !stage.isSignal := by
  have kept : ∀ {owner : Nat} {stage : Stage}, stage.isSignal = false →
      (if owner = id then some stage else none) =
        (if owner = id then some stage else none : Option Stage).filter
          fun stage => !stage.isSignal := by
    intro owner stage plain
    split <;> simp [Option.filter, plain]
  cases job with
  | signal slots sent =>
      cases slots with
      | healthCheck => rfl
      | accepted owner credentials token =>
          by_cases own : owner = id
          · cases sent <;>
              simp [Job.isOf, Job.stage?, Slots.ref, own, stageOf, Option.filter, Stage.isSignal]
          · simp [Job.isOf, Job.stage?, Slots.ref, own]
  | notify token notice =>
      cases notice with
      | ready => exact kept rfl
      | _ => rfl
  | enqueuePeerErrorOccurred => exact kept rfl
  | enqueuePeerClosed => exact kept rfl
  | received => exact kept rfl
  | requestReceived => exact kept rfl
  | peerErrorOccurred => exact kept rfl
  | peerClosed => exact kept rfl
  | _ => rfl

/-- Another peer object takes nothing of this peer with it. -/
theorem stage?_kept {id : Nat} {ref : PeerRef} (other : ref ≠ .accepted id) (job : Job) :
    (if !job.isOf ref then job.stage? id else none) = job.stage? id := by
  cases job with
  | signal slots sent =>
      cases slots with
      | healthCheck => simp [Job.stage?]
      | accepted owner credentials token =>
          by_cases own : owner = id
          · simp [Job.isOf, Slots.ref, own, other.symm]
          · simp [Job.stage?, own]
  | _ => rfl

/-- The end of a peer object that nothing holds. -/
theorem destroy_moves {calm : Prop} {id : Nat} {state : State} {ref : PeerRef}
    {connection : Connection ref} (released : released state connection = true) :
    Lifecycle.Moves calm (state.life id) []
      (State.life id { state with
        io := { state.io with
          connections := Function.update state.io.connections ref none }
        jobs := state.jobs.filter fun job => !job.isOf ref }) := by
  have stops : ∀ ref : PeerRef, (state.jobs.filter fun job => !job.isOf ref).any Job.stops =
      state.jobs.any Job.stops := by
    intro ref
    rw [List.any_filter]
    congr 1
    funext job
    cases job <;> simp [Job.isOf, Job.stops]
  by_cases own : ref = .accepted id
  · subst own
    simp only [Server.released, Io.holds, Bool.and_eq_true, Bool.not_eq_true'] at released
    have unlisted : (state.life id).listed = false := by
      simpa [State.life] using released.1.1
    have finished : (state.life id).closing = false := by
      refine List.any_eq_false.mpr fun handler member finishes => ?_
      have free := List.any_eq_false.mp released.1.2 handler member
      cases handler with
      | peer ref handler =>
          cases ref with
          | probe => cases finishes
          | accepted other =>
              cases handler with
              | close completion =>
                  cases completion with
                  | false => cases finishes
                  | true =>
                      rw [of_decide_eq_true finishes] at free
                      simp [Handler.isOf] at free
              | _ => cases finishes
      | _ => cases finishes
    refine (Lifecycle.Moves.single (.destroy unlisted finished)).fade
      ⟨rfl, ?_, ?_, ?_, rfl, rfl, ?_, rfl, ?_, ?_, ?_⟩
    · simp [State.life]
    · simp [State.life]
    · simp [State.life]
    · simp [State.life, Io.mayClose]
    · simp [State.life]
    · simp [State.life, stops]
    · simp only [State.life, List.filterMap_filter, List.filter_filterMap]
      congr 1
      funext job
      exact stage?_dropped id job
  · refine .single (.fade ⟨rfl, ?_, ?_, ?_, rfl, rfl, ?_, rfl, ?_, ?_, ?_⟩)
    · simp [State.life, Function.update_of_ne (Ne.symm own)]
    · simp [State.life, Function.update_of_ne (Ne.symm own)]
    · simp [State.life, Function.update_of_ne (Ne.symm own)]
    · simp [State.life, Io.mayClose]
    · simp [State.life]
    · simp [State.life, stops]
    · simp only [State.life, List.filterMap_filter]
      congr 1
      funext job
      exact stage?_kept own job

/-- The moves of what happens outside. -/
theorem accepts_moves {calm : Prop} {id : Nat} {state state' : State} {input : Input}
    {events : List Event} (modest : calm → Modest state input)
    (accepts : Accepts state input events state') :
    Lifecycle.Moves calm (state.life id) (marks id events) (state'.life id) := by
  cases accepts with
  | asyncStart =>
      refine .single (.fade ⟨rfl, rfl, rfl, rfl, rfl, rfl, ?_, rfl, ?_, ?_, ?_⟩)
      all_goals simp [State.life, enqueue, Job.stage?, Job.stops]
  | asyncStop =>
      refine (Lifecycle.Moves.single (.stop modest)).fade
        ⟨rfl, rfl, rfl, rfl, rfl, rfl, ?_, rfl, ?_, fun _ => rfl, ?_⟩
      all_goals simp [State.life, enqueue, Job.stage?]
  | asyncSend other data => exact post_moves rfl rfl
  | asyncRespond other requestId data => exact post_moves rfl rfl
  | asyncRequest call other data =>
      refine ask_moves (fun calm own => ?_) rfl
      rw [← beq_iff_eq.mp own]
      exact modest calm
  | asyncClosePeer other =>
      refine ask_moves (fun calm own => ?_) rfl
      rw [← beq_iff_eq.mp own]
      exact modest calm
  | acceptCompletes result outstanding =>
      refine .single (.fade ⟨rfl, rfl, rfl, rfl, rfl, rfl, ?_, ?_, ?_, ?_, rfl⟩)
      · simp [State.life, post, Io.mayClose, Handler.mayClose]
      · simp [State.life, post, Handler.finishes]
      · simp [State.life, post, Handler.erases]
      · simp [State.life, post, Handler.stops]
  | peerCompletes alive completes => exact peerCompletes_moves alive completes
  | requestExpires expires =>
      obtain ⟨_, fewer, waiting⟩ := RequestManager.expire?_eq_some expires
      refine .single (.fade ⟨rfl, rfl, rfl, rfl, rfl, rfl, fun closable => ?_, ?_, ?_, ?_, rfl⟩)
      · simp only [State.life, post, Io.mayClose, Handler.mayClose, List.any_append, List.any_cons,
          List.any_nil, Bool.or_false, Bool.or_eq_true, List.any_eq_true] at closable ⊢
        rcases closable with (queued | own) | ⟨wait, member, own⟩
        · exact .inl queued
        · exact .inr ⟨_, waiting, own⟩
        · exact .inr ⟨wait, fewer wait member, own⟩
      · simp [State.life, post, Handler.finishes]
      · simp [State.life, post, Handler.erases]
      · simp [State.life, post, Handler.stops]
  | healthCheckExpires outstanding =>
      refine .single (.fade ⟨rfl, rfl, rfl, rfl, rfl, rfl, ?_, ?_, ?_, ?_, rfl⟩)
      · simp [State.life, post, Io.mayClose, Handler.mayClose]
      · simp [State.life, post, Handler.finishes]
      · simp [State.life, post, Handler.erases]
      · simp [State.life, post, Handler.stops]
  | healthCheckConnects errorCode outstanding =>
      refine .single (.fade ⟨rfl, rfl, rfl, rfl, rfl, rfl, ?_, ?_, ?_, ?_, rfl⟩)
      · simp [State.life, post, Io.mayClose, Handler.mayClose]
      · simp [State.life, post, Handler.finishes]
      · simp [State.life, post, Handler.erases]
      · simp [State.life, post, Handler.stops]
  | destroy alive released => exact destroy_moves released

/-- A step that a calm run may take. -/
def CalmStep (state : State) : Label → Prop
  | .input input => Modest state input
  | .handler _ => state.handlers.head?.all (Turn.punctual state.io) = true
  | _ => True

instance (state : State) (label : Label) : Decidable (CalmStep state label) :=
  match label with
  | .input input => inferInstanceAs (Decidable (Modest state input))
  | .handler _ =>
      inferInstanceAs (Decidable (state.handlers.head?.all (Turn.punctual state.io) = true))
  | .job _ => .isTrue trivial
  | .delayed _ => .isTrue trivial

/-- Every step of the server is a row of moves of every peer's life. -/
theorem step_moves {calm : Prop} {id : Nat} {phase : Lifecycle.Phase} {options : CommonOptions}
    {state state' : State} {label : Label} {events : List Event}
    (traced : Lifecycle.Traced phase (state.life id)) (session : state.DelaysSession)
    (calmly : calm → CalmStep state label)
    (step : (system options).step? state label = some (state', events)) :
    Lifecycle.Moves calm (state.life id) (marks id events) (state'.life id) := by
  cases Program.step_of_eq_some step with
  | handler queued outcome =>
      refine handler_moves traced options queued outcome fun calm => ?_
      have timely := calmly calm
      simpa [CalmStep, queued] using timely
  | job queued verdict => exact job_moves queued
  | @delayed index job idle due =>
      have member := List.mem_of_getElem? due
      have stage := Job.stage?_of_isSession (session job member) id
      refine .single (.fade ⟨rfl, rfl, rfl, rfl, rfl, rfl, fun closable => closable, rfl,
        fun erasing => erasing, fun stopping => ?_, ?_⟩)
      · simp only [State.life, idle, List.nil_append, List.any_append, List.any_cons, List.any_nil,
          Bool.or_false, Bool.or_eq_true, List.any_eq_true] at stopping ⊢
        rcases stopping with queued | stops | ⟨later, still, stops⟩
        · exact .inl queued
        · exact .inr ⟨job, member, stops⟩
        · exact .inr ⟨later, List.mem_of_mem_eraseIdx still, stops⟩
      · simp [State.life, idle, stage]
  | input accepted => exact accepts_moves calmly (accepts_of_eq_some accepted)

/-- Every run of the server is a life of every peer id. -/
theorem run_moves (calm : Prop) (id : Nat) {options : CommonOptions}
    {permitted : State → Label → Prop}
    (calmly : ∀ {state label}, permitted state label → calm → CalmStep state label)
    {log : List Event} {state : State} (run : Run (system options) permitted initial log state) :
    Lifecycle.Moves calm .unborn (marks id log) (state.life id) := by
  induction run with
  | refl =>
      rw [life_initial]
      exact .refl _
  | next run permit step ih =>
      obtain ⟨phase, count, _, traced⟩ := ih.inPhase
      have moves := step_moves traced (run_delaysSession run) (calmly permit) step
      rw [marks, List.filterMap_append]
      exact ih.trans moves

end UnixDomainStream.Server
