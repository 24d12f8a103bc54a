import UnixDomainStream.Peer.Pieces
import UnixDomainStream.Peer.Program

/-!
# What keeps a peer alive

A peer object lives as long as its owner, a queued handler or an outstanding operation
holds it.  Until the socket is closed on the executor, the handler of `async_start` or the
heartbeat deadline holds it, so the destructor never finds the socket unclosed.
-/

namespace UnixDomainStream

open Library Protocol

namespace PeerTurn

/-- The socket was closed on the executor, or the heartbeat deadline is armed. -/
def Alive (turn : PeerTurn) : Prop :=
  turn.peer.closedOnExecutor = true ∨ ∃ wait, turn.peer.waits .heartbeatDeadline = some wait

variable {turn : PeerTurn}

theorem Alive.congr {after : PeerTurn} (alive : turn.Alive)
    (closed : after.peer.closedOnExecutor = turn.peer.closedOnExecutor)
    (waits : after.peer.waits = turn.peer.waits) : after.Alive := by
  rw [Alive, closed, waits]
  exact alive

theorem Alive.cancel (alive : turn.Alive) {name : PeerTimer} (other : name ≠ .heartbeatDeadline) :
    (turn.cancel name).Alive := by
  refine alive.imp_right fun ⟨wait, waiting⟩ => ⟨wait, ?_⟩
  simp [PeerTurn.cancel, Function.update_of_ne other.symm, waiting]

theorem alive_refreshHeartbeatDeadline (turn : PeerTurn) :
    turn.refreshHeartbeatDeadline.Alive := by
  refine .inr ⟨turn.peer.nextWait, ?_⟩
  simp [refreshHeartbeatDeadline, asyncWait, PeerTurn.cancel]

theorem Alive.asyncWait (alive : turn.Alive) (name : PeerTimer) : (turn.asyncWait name).Alive := by
  by_cases same : name = .heartbeatDeadline
  · subst same
    exact alive_refreshHeartbeatDeadline turn
  · refine (alive.cancel same).imp_right fun ⟨wait, waiting⟩ => ⟨wait, ?_⟩
    simpa [PeerTurn.asyncWait, Function.update_of_ne (Ne.symm same)] using waiting

theorem Alive.asyncRead (alive : turn.Alive) (operation : PendingRead) :
    (turn.asyncRead operation).Alive := by
  unfold PeerTurn.asyncRead
  split
  · exact alive.congr rfl rfl
  · exact alive.congr rfl rfl

theorem alive_close (turn : PeerTurn) : turn.close.Alive := by
  refine .inl ?_
  unfold PeerTurn.close
  dsimp only
  split <;> rfl

theorem Alive.handleError (alive : turn.Alive) (errorCode : ErrorCode) :
    (turn.handleError errorCode).Alive := by
  unfold PeerTurn.handleError
  split
  · exact alive
  · exact alive_close _

theorem Alive.write (alive : turn.Alive) : turn.write.Alive := by
  unfold PeerTurn.write
  split
  · exact alive
  · split
    · exact (alive.asyncWait .writeDeadline).congr rfl rfl
    · exact alive

theorem Alive.pushFrame (alive : turn.Alive) (options : CommonOptions) (frame : Bytes) :
    (turn.pushFrame options frame).Alive := by
  unfold PeerTurn.pushFrame
  split
  · split
    · exact alive.handleError _
    · dsimp only
      split
      · exact Alive.write (alive.congr rfl rfl)
      · exact alive.congr rfl rfl
  · exact alive

theorem Alive.ensureReady (alive : turn.Alive) : turn.ensureReady.Alive := by
  unfold PeerTurn.ensureReady
  split
  · exact alive
  · have raised : Alive { turn with peer := { turn.peer with ready := true } } :=
      alive.congr rfl rfl
    exact (@Alive.cancel _ raised .readyDeadline (by decide)).congr rfl rfl

theorem Alive.readHeader (alive : turn.Alive) : turn.readHeader.Alive := by
  unfold PeerTurn.readHeader
  split
  · exact (alive.asyncWait .readDeadline).asyncRead .header
  · exact alive

theorem Alive.readBody (alive : turn.Alive) : turn.readBody.Alive :=
  (alive.asyncWait .readDeadline).asyncRead _

theorem Alive.readUserData (alive : turn.Alive) (options : CommonOptions) :
    (turn.readUserData options).Alive := by
  unfold PeerTurn.readUserData
  dsimp only
  split
  · exact alive.ensureReady.handleError _
  · exact Alive.readHeader (alive.ensureReady.congr rfl rfl)

theorem Alive.readRequestResponse (alive : turn.Alive) (options : CommonOptions)
    (signal : UInt64 → Bytes → Signal) : (turn.readRequestResponse options signal).Alive := by
  unfold PeerTurn.readRequestResponse
  dsimp only
  split
  · exact alive.ensureReady.handleError _
  · split
    · exact alive.ensureReady.congr rfl rfl
    · exact Alive.readHeader (alive.ensureReady.congr rfl rfl)

theorem Alive.readHealthCheck (alive : turn.Alive) (options : CommonOptions) :
    (turn.readHealthCheck options).Alive := by
  unfold PeerTurn.readHealthCheck
  split
  · exact alive.handleError _
  · have classified : Alive { turn with peer := { turn.peer with closeAfterWrite := true } } :=
      alive.congr rfl rfl
    exact classified.pushFrame options _

theorem Alive.readMessage (alive : turn.Alive) (options : CommonOptions) :
    (turn.readMessage options).Alive := by
  unfold PeerTurn.readMessage
  split
  · exact alive.congr rfl rfl
  · split
    · exact alive.readHeader
    · exact alive.readUserData options
    · exact alive.readRequestResponse options _
    · exact alive.readRequestResponse options _
    · exact alive.readHealthCheck options
    · exact Alive.readHeader (alive.congr rfl rfl)
    · exact alive.handleError _

theorem Alive.onReadHeader (alive : turn.Alive) (options : CommonOptions) (errorCode : ErrorCode)
    (bytes : Bytes) : (turn.onReadHeader options errorCode bytes).Alive := by
  have cancelled : (turn.cancel .readDeadline).Alive := alive.cancel (by decide)
  unfold PeerTurn.onReadHeader
  dsimp only
  split
  · split
    · exact alive_close _
    · exact cancelled.handleError _
  · split
    · exact cancelled.handleError _
    · split
      · exact cancelled.handleError _
      · exact Alive.readBody (cancelled.congr rfl rfl)

theorem Alive.onReadBody (alive : turn.Alive) (options : CommonOptions) (errorCode : ErrorCode)
    (bytes : Bytes) : (turn.onReadBody options errorCode bytes).Alive := by
  have cancelled : (turn.cancel .readDeadline).Alive := alive.cancel (by decide)
  unfold PeerTurn.onReadBody
  dsimp only
  split
  · exact cancelled.handleError _
  · split
    · exact cancelled.handleError _
    · exact (alive_refreshHeartbeatDeadline _).readMessage options

theorem Alive.onWrite (alive : turn.Alive) (errorCode : ErrorCode) :
    (turn.onWrite errorCode).Alive := by
  have cancelled : (turn.cancel .writeDeadline).Alive := alive.cancel (by decide)
  unfold PeerTurn.onWrite
  dsimp only
  split
  · exact cancelled.handleError _
  · split
    · exact cancelled.congr rfl rfl
    · split
      · exact alive_close _
      · exact Alive.write (cancelled.congr rfl rfl)

/-- An expired deadline closes the socket. -/
theorem alive_timedOut (turn : PeerTurn) : (turn.handleError .timedOut).Alive := by
  rw [PeerTurn.handleError, if_neg (by decide)]
  exact alive_close _

/-- Every handler keeps the peer alive. -/
theorem Alive.run (alive : turn.Alive) (options : CommonOptions) (handler : PeerHandler) :
    (PeerTurn.run options handler turn).Alive := by
  cases handler with
  | start => exact (alive_refreshHeartbeatDeadline _).readHeader
  | close completion => exact (alive_close turn).congr rfl rfl
  | pushFrame frame => exact alive.pushFrame options frame
  | timer name wait errorCode =>
      simp only [PeerTurn.run]
      split
      · cases name with
        | readyDeadline => exact alive.ensureReady
        | heartbeatTimer =>
            simp only [onTimer]
            split
            · exact (alive.pushFrame options _).asyncWait .heartbeatTimer
            · exact alive
        | _ => exact alive_timedOut turn
      · exact alive
  | readHeader errorCode bytes => exact alive.onReadHeader options errorCode bytes
  | readBody errorCode bytes => exact alive.onReadBody options errorCode bytes
  | write errorCode => exact alive.onWrite errorCode

end PeerTurn

/-- A handler that leaves the peer alive whatever it was before. -/
def PeerHandler.revives : PeerHandler → Bool
  | .start => true
  | .timer .heartbeatDeadline _ errorCode => errorCode == .success
  | _ => false

theorem PeerHandler.revives_alive {handler : PeerHandler} (revives : handler.revives = true)
    (options : CommonOptions) (turn : PeerTurn) : (PeerTurn.run options handler turn).Alive := by
  cases handler with
  | start => exact (PeerTurn.alive_refreshHeartbeatDeadline _).readHeader
  | timer name wait errorCode =>
      cases name with
      | heartbeatDeadline =>
          have expired : errorCode = .success := by simpa [PeerHandler.revives] using revives
          subst expired
          exact PeerTurn.alive_timedOut turn
      | _ => cases revives
  | _ => cases revives

namespace Peer

/-- A peer object with its owner's pointer. -/
structure Held where
  state : State := {}
  owner : Bool := true
  /-- `async_start` has been called. -/
  started : Bool := false

namespace Held

/-- A queued handler, an outstanding operation or the owner holds a `shared_ptr`. -/
def held (object : Held) : Bool :=
  object.owner || !object.state.handlers.isEmpty || !object.state.peer.idle

/-- The handlers run in any order; the owner calls the peer and lets it go. -/
inductive Label where
  | handler (index : Nat)
  | asyncStart
  | asyncClose (completion : Bool)
  | asyncPushFrame (frame : Bytes)
  | completes (completion : PeerCompletion)
  | release
  deriving DecidableEq, Repr

/-- The queue with one of its handlers moved to the front. -/
def front? (index : Nat) (state : State) : Option State :=
  state.handlers[index]?.map fun handler =>
    { state with handlers := handler :: state.handlers.eraseIdx index }

/-- A step of the peer itself. -/
def run? (options : CommonOptions) (label : Peer.Label) (state : State) (object : Held) :
    Option (Held × List Event) :=
  (Peer.step? options state label).map fun (state, events) => ({ object with state }, events)

def step? (options : CommonOptions) (object : Held) : Label → Option (Held × List Event)
  | .handler index => (front? index object.state).bind fun state =>
      object.run? options .handler state
  | .asyncStart =>
      if object.owner then
        some ({ object with
          state := { object.state with handlers := object.state.handlers ++ [.start] }
          started := true }, [])
      else none
  | .asyncClose completion =>
      if object.owner then object.run? options (.asyncClose completion) object.state else none
  | .asyncPushFrame frame =>
      if object.owner then object.run? options (.asyncPushFrame frame) object.state else none
  | .completes completion => object.run? options (.completes completion) object.state
  | .release => if object.owner then some ({ object with owner := false }, []) else none

def system (options : CommonOptions) : System Held Label Event where
  step? := step? options

/-- The start handler or the heartbeat deadline, its wait or its expired handler, holds
the peer. -/
def Chained (state : State) : Prop :=
  .start ∈ state.handlers ∨ (∃ wait, state.peer.waits .heartbeatDeadline = some wait) ∨
    ∃ wait, .timer .heartbeatDeadline wait .success ∈ state.handlers

/-- A started peer is held until the socket is closed on the executor. -/
def Linked (state : State) : Prop :=
  state.peer.closedOnExecutor = true ∨ Chained state

theorem Linked.of_alive {state : State} {turn : PeerTurn} (alive : turn.Alive)
    (peer : state.peer = turn.peer) : Linked state := by
  rw [PeerTurn.Alive, ← peer] at alive
  exact alive.imp_right fun armed => .inr (.inl armed)

theorem Linked.mono {state state' : State} (linked : Linked state) (peer : state'.peer = state.peer)
    (handlers : ∀ handler ∈ state.handlers, handler ∈ state'.handlers) : Linked state' := by
  rw [Linked, Chained, peer]
  refine linked.imp_right fun chained => ?_
  rcases chained with start | armed | ⟨wait, expired⟩
  · exact .inl (handlers _ start)
  · exact .inr (.inl armed)
  · exact .inr (.inr ⟨wait, handlers _ expired⟩)

theorem mem_front {index : Nat} {state front : State} (moved : front? index state = some front)
    {handler : PeerHandler} (queued : handler ∈ state.handlers) : handler ∈ front.handlers := by
  obtain ⟨first, found, rfl⟩ := Option.map_eq_some_iff.mp moved
  by_cases same : handler = first
  · exact same ▸ List.mem_cons_self
  · refine List.mem_cons_of_mem _ (List.mem_eraseIdx_iff_getElem?.mpr ?_)
    obtain ⟨position, located⟩ := List.mem_iff_getElem?.mp queued
    refine ⟨position, ?_, located⟩
    rintro rfl
    rw [located, Option.some.injEq] at found
    exact same found

theorem Linked.front {index : Nat} {state front : State} (linked : Linked state)
    (moved : front? index state = some front) : Linked front := by
  refine linked.mono ?_ fun handler queued => mem_front moved queued
  obtain ⟨first, _, rfl⟩ := Option.map_eq_some_iff.mp moved
  rfl

/-- Every step of the peer keeps it linked. -/
theorem Linked.step {options : CommonOptions} {state state' : State} {label : Peer.Label}
    {events : List Event} (linked : Linked state)
    (step : Peer.Step options state label events state') : Linked state' := by
  cases step with
  | @handler handler rest queued =>
      by_cases revives : handler.revives = true
      · exact .of_alive (handler.revives_alive revives options { peer := state.peer }) rfl
      by_cases alive : PeerTurn.Alive { peer := state.peer }
      · exact .of_alive (alive.run options handler) rfl
      -- The peer is held by a handler behind this one.
      refine .inr ?_
      rw [PeerTurn.Alive, not_or] at alive
      rcases linked.resolve_left alive.1 with start | armed | ⟨wait, expired⟩
      · rw [queued] at start
        rcases List.mem_cons.mp start with rfl | behind
        · exact absurd rfl revives
        · exact .inl (List.mem_append_left _ behind)
      · exact absurd armed alive.2
      · rw [queued] at expired
        rcases List.mem_cons.mp expired with rfl | behind
        · exact absurd rfl revives
        · exact .inr (.inr ⟨wait, List.mem_append_left _ behind⟩)
  | asyncClose completion => exact linked.mono rfl fun _ queued => List.mem_append_left _ queued
  | asyncPushFrame frame => exact linked.mono rfl fun _ queued => List.mem_append_left _ queued
  | completes completed =>
      cases completes_of_eq_some completed with
      | @timer name wait waiting =>
          by_cases own : name = .heartbeatDeadline
          · subst own
            exact .inr (.inr (.inr ⟨wait, List.mem_append_right _ List.mem_cons_self⟩))
          · refine linked.imp_right fun chained => ?_
            rcases chained with start | ⟨other, armed⟩ | ⟨other, expired⟩
            · exact .inl (List.mem_append_left _ start)
            · exact .inr (.inl ⟨other, by simp [Function.update_of_ne (Ne.symm own), armed]⟩)
            · exact .inr (.inr ⟨other, List.mem_append_left _ expired⟩)
      | read reading genuine filled =>
          refine linked.imp_right fun chained => ?_
          exact chained.imp (List.mem_append_left _) (.imp id fun ⟨wait, expired⟩ =>
            ⟨wait, List.mem_append_left _ expired⟩)
      | write writing genuine =>
          refine linked.imp_right fun chained => ?_
          exact chained.imp (List.mem_append_left _) (.imp id fun ⟨wait, expired⟩ =>
            ⟨wait, List.mem_append_left _ expired⟩)

/-- A started peer stays linked, whatever happens to it. -/
theorem step_linked {options : CommonOptions} {object object' : Held} {label : Label}
    {events : List Event} (linked : object.started = true → Linked object.state)
    (step : (system options).step? object label = some (object', events)) :
    object'.started = true → Linked object'.state := by
  have ran : ∀ {label : Peer.Label} {state : State}, (object.started = true → Linked state) →
      object.run? options label state = some (object', events) →
        object'.started = true → Linked object'.state := by
    intro label state linked ran started
    obtain ⟨⟨state', emitted⟩, stepped, same⟩ := Option.map_eq_some_iff.mp ran
    cases same
    exact (linked started).step (Peer.step_of_eq_some stepped)
  cases label with
  | handler index =>
      obtain ⟨state, moved, stepped⟩ := Option.bind_eq_some_iff.mp step
      exact ran (fun started => (linked started).front moved) stepped
  | asyncStart =>
      simp only [system, step?] at step
      split at step
      · cases step
        exact fun _ => .inr (.inl (List.mem_append_right _ List.mem_cons_self))
      · cases step
  | asyncClose completion =>
      simp only [system, step?] at step
      split at step
      · exact ran linked step
      · cases step
  | asyncPushFrame frame =>
      simp only [system, step?] at step
      split at step
      · exact ran linked step
      · cases step
  | completes completion => exact ran linked step
  | release =>
      simp only [system, step?] at step
      split at step
      · cases step
        exact linked
      · cases step

/-- Something that holds a peer is counted. -/
theorem held_of_chained {object : Held} (chained : Chained object.state) : object.held = true := by
  have queued : ∀ {handler : PeerHandler}, handler ∈ object.state.handlers →
      object.held = true := by
    intro handler member
    have filled : object.state.handlers ≠ [] := List.ne_nil_of_mem member
    simp [held, filled]
  rcases chained with start | ⟨wait, armed⟩ | ⟨wait, expired⟩
  · exact queued start
  · simp [held, Peer.idle, armed]
  · exact queued expired

/-- The abort in the destructor is unreachable.  In every run in which `async_start` has
been called, until the socket is closed on the executor the start handler or the heartbeat
deadline holds the peer; so when nothing holds it any more, the socket has been closed. -/
theorem destroyed_closed (options : CommonOptions) {log : List Event} {object : Held}
    (run : Run (system options) (fun _ _ => True) {} log object)
    (started : object.started = true) :
    (object.state.peer.closedOnExecutor = false → Chained object.state) ∧
      (object.held = false → object.state.peer.closedOnExecutor = true) := by
  have linked : object.started = true → Linked object.state := by
    clear started
    induction run with
    | refl => nofun
    | next _ _ step ih => exact step_linked ih step
  have linked := linked started
  constructor
  · intro unclosed
    exact linked.resolve_left (by simp [unclosed])
  · intro released
    refine linked.resolve_right fun chained => ?_
    rw [held_of_chained chained] at released
    cases released

/-- The owner lets a started peer go without closing it, and the heartbeat deadline
expires. -/
theorem destroyed_closed_silence :
    ∃ log object, Run (system {}) (fun _ _ => True) {} log object ∧ object.started = true ∧
      object.held = false ∧ object.state.peer.closedOnExecutor = true := by
  let labels : List Label :=
    [.asyncStart, .release, .handler 0, .completes (.timer .heartbeatDeadline)] ++
      List.replicate 5 (.handler 0)
  let log : List Event :=
    [.armed .readyDeadline 0, .armed .heartbeatTimer 1, .armed .heartbeatDeadline 2,
      .armed .readDeadline 3, .timedOut .heartbeatDeadline 2,
      .signal (.errorOccurred .timedOut), .signal .closed]
  let view (object : Held) := (object.started, object.held)
  have computed : (Run.steps? (system {}) (fun _ _ => True) {} labels).map
      (fun result => (view result.1, result.2)) = some ((true, false), log) := by
    decide +kernel
  obtain ⟨object, run, viewed⟩ := Run.of_view computed
  have started : object.started = true := congrArg Prod.fst viewed
  have released : object.held = false := congrArg Prod.snd viewed
  exact ⟨log, object, run, started, released, (destroyed_closed {} run started).2 released⟩

end Held

end Peer

end UnixDomainStream
