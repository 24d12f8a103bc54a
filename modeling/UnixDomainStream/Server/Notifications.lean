import UnixDomainStream.Server.CalmLifecycle
import UnixDomainStream.Server.Provenance
import UnixDomainStream.Server.Simulation

/-!
# The notifications about a peer

What the outside learns about a peer id follows its life.  In calm runs an
announced peer is connected or its close is on its way to be reported.  A peer
that is declared ready after its socket was closed is announced after its close
has been processed, and stays exposed for ever.
-/

namespace UnixDomainStream.Server

open Library

/-- A run of the server, with nothing ruled out, is a life of each peer id. -/
theorem run_inPhase (id : Nat) {options : CommonOptions} {permitted : State → Label → Prop}
    {log : List Event} {state : State} (run : Run (system options) permitted initial log state) :
    Lifecycle.InPhase (marks id log) (state.life id) :=
  (run_moves False id (fun _ calm => calm.elim) run).inPhase

theorem closed_of_mem {phase : Lifecycle.Phase} {count id : Nat} {log : List Event}
    (same : marks id log = phase.marks count) (delivered : .peerClosed id ∈ log) :
    phase = .closed := by
  have listed : Mark.closed ∈ marks id log :=
    List.mem_filterMap.mpr ⟨_, delivered, by simp [Event.mark?]⟩
  rw [same] at listed
  cases phase <;> simp [Lifecycle.Phase.marks] at listed ⊢

/-- The notifications carrying a peer id follow the life of that peer: it is
accepted, verified, announced, reported and closed, each at most once and in this
order, or it is rejected.  It is verified by the credentials of its connection,
and its socket is closed by the time `peer_closed` is delivered. -/
theorem notifications_follow_life (options : CommonOptions) {log : List Event} {state : State}
    (run : Run (system options) (fun _ _ => True) initial log state) (id : Nat) :
    (∃ phase count, marks id log = Lifecycle.Phase.marks count phase) ∧
    (∀ credentials verdict, .verifyPeer id credentials verdict ∈ log →
      .accepted id credentials ∈ log) ∧
    (∀ credentials, .peerConnected id credentials ∈ log → .accepted id credentials ∈ log) ∧
    (.peerClosed id ∈ log → ∀ connection, state.io.connections (.accepted id) = some connection →
      connection.peer.isOpen = false) := by
  obtain ⟨phase, count, same, traced⟩ := run_inPhase id run
  have backed := (run_backed run).events
  refine ⟨⟨phase, count, same⟩, fun _ _ => backed _, fun _ => backed _, ?_⟩
  intro delivered connection alive
  have shut := traced.ended (closed_of_mem same delivered)
  simpa [State.life, alive] using shut

/-- The remote end of an announced peer is closed, and the close is reported. -/
theorem notifications_follow_life_remote_close :
    ∃ log state, Run (system {}) (fun _ _ => True) initial log state ∧
      marks 1 log = [.accepted, .verified true, .connected, .closed] ∧
      (∃ phase count, marks 1 log = Lifecycle.Phase.marks count phase) ∧
      ∀ connection, state.io.connections (.accepted 1) = some connection →
        connection.peer.isOpen = false := by
  let credentials : PeerCredentials := ⟨none, none, none⟩
  let handlers (count : Nat) : List Label := List.replicate count (.handler .succeeded)
  let jobs (count : Nat) : List Label := List.replicate count (.job true)
  let labels : List Label :=
    [.input .asyncStart] ++ jobs 2 ++ handlers 1 ++ jobs 5 ++ handlers 1 ++
      [.input (.acceptCompletes (.socket credentials))] ++ handlers 2 ++
      [.input (.peerCompletes (.accepted 1) (.timer .readyDeadline))] ++ handlers 1 ++ jobs 2 ++
      [.input (.peerCompletes (.accepted 1) (.read .eof []))] ++ handlers 1 ++ jobs 3
  let log : List Event :=
    [.bound 1, .accepted 1 credentials, .verifyPeer 1 credentials true,
      .peerConnected 1 credentials, .peerClosed 1]
  have computed : (Run.steps? (system {}) (fun _ _ => True) initial labels).map
      (fun result => ((), result.2)) = some ((), log) := by
    decide +kernel
  have ran : ∃ state, Run (system {}) (fun _ _ => True) initial log state ∧ () = () :=
    Run.of_view computed
  obtain ⟨state, run, _⟩ := ran
  obtain ⟨phases, _, _, shut⟩ := notifications_follow_life {} run 1
  exact ⟨log, state, run, by decide, phases, shut (by decide)⟩

/-! ## Calm runs -/

theorem run_inSoundPhase (id : Nat) {options : CommonOptions} {log : List Event} {state : State}
    (run : Run (system options) CalmStep initial log state) :
    Lifecycle.InSoundPhase (marks id log) (state.life id) :=
  Lifecycle.Moves.inSoundPhase (run_moves True id (fun permit _ => permit) run)

/-- The peer is in the table and its socket is open. -/
def State.Connected (state : State) (id : Nat) : Prop :=
  id ∈ state.io.peers ∧
    ∃ connection, state.io.connections (.accepted id) = some connection ∧
      connection.peer.isOpen = true

/-- With nothing queued, the close of a peer cannot be on its way. -/
theorem connected_of_owes {state : State} {id : Nat} (owes : (state.life id).Owes)
    (handlers : state.handlers = []) (jobs : state.jobs = []) : state.Connected id := by
  have stages : (state.life id).stages = [] := by simp [State.life, jobs]
  have closing : (state.life id).closing = false := by simp [State.life, handlers]
  simp only [Lifecycle.Owes, stages, closing, List.not_mem_nil, Bool.false_eq_true, or_false]
    at owes
  cases alive : state.io.connections (.accepted id) with
  | none => simp [State.life, alive] at owes
  | some connection =>
      have opened : connection.peer.isOpen = true := by simpa [State.life, alive] using owes.2
      exact ⟨of_decide_eq_true owes.1, connection, alive, opened⟩

theorem announced_of_mem {phase : Lifecycle.Phase} {count id : Nat} {log : List Event}
    {credentials : PeerCredentials} (same : marks id log = phase.marks count)
    (delivered : .peerConnected id credentials ∈ log) :
    phase = .connected ∨ phase = .closed := by
  have listed : Mark.connected ∈ marks id log :=
    List.mem_filterMap.mpr ⟨_, delivered, by simp [Event.mark?]⟩
  rw [same] at listed
  cases phase <;> simp [Lifecycle.Phase.marks] at listed ⊢

theorem mem_of_closed {count id : Nat} {log : List Event}
    (same : marks id log = Lifecycle.Phase.marks count .closed) : .peerClosed id ∈ log := by
  have listed : Mark.closed ∈ marks id log := by
    rw [same]
    simp [Lifecycle.Phase.marks]
  obtain ⟨event, member, marked⟩ := List.mem_filterMap.mp listed
  cases event with
  | peerClosed owner =>
      by_cases own : owner = id
      · rwa [← own]
      · simp [Event.mark?, own] at marked
  | _ => simp [Event.mark?] at marked

/-- In every run in which no peer is declared ready after its socket is closed,
only exposed peers are closed or asked and nothing stops the server, an exposed
peer is connected or its close is on its way to be reported; with nothing queued
it is connected; and an announced peer is exposed until its `peer_closed` has been
delivered. -/
theorem no_phantom_peer (options : CommonOptions) {log : List Event} {state : State}
    (run : Run (system options) CalmStep initial log state) :
    (∀ id ∈ state.dispatcher.exposedPeerIds, (state.life id).Owes) ∧
    (state.handlers = [] → state.jobs = [] →
      ∀ id ∈ state.dispatcher.exposedPeerIds, state.Connected id) ∧
    (∀ id credentials, .peerConnected id credentials ∈ log →
      id ∈ state.dispatcher.exposedPeerIds ∨ .peerClosed id ∈ log) ∧
    (state.handlers = [] → state.jobs = [] → ∀ id credentials,
      .peerConnected id credentials ∈ log → state.Connected id ∨ .peerClosed id ∈ log) := by
  have owes : ∀ id ∈ state.dispatcher.exposedPeerIds, (state.life id).Owes := by
    intro id exposed
    obtain ⟨phase, count, _, sound⟩ := run_inSoundPhase id run
    exact sound.owed (.inl (decide_eq_true exposed))
  have announced : ∀ id credentials, .peerConnected id credentials ∈ log →
      id ∈ state.dispatcher.exposedPeerIds ∨ .peerClosed id ∈ log := by
    intro id credentials delivered
    obtain ⟨phase, count, same, sound⟩ := run_inSoundPhase id run
    rcases announced_of_mem same delivered with rfl | rfl
    · exact .inl (of_decide_eq_true (sound.shown rfl))
    · exact .inr (mem_of_closed same)
  refine ⟨owes, fun handlers jobs id exposed => ?_, announced, fun handlers jobs id _ told => ?_⟩
  · exact connected_of_owes (owes id exposed) handlers jobs
  · exact (announced id _ told).imp_left fun exposed =>
      connected_of_owes (owes id exposed) handlers jobs

/-- A peer whose ready deadline has expired is announced, and is still connected
when nothing is queued. -/
theorem no_phantom_peer_ready_deadline :
    ∃ log state, Run (system {}) CalmStep initial log state ∧
      1 ∈ state.dispatcher.exposedPeerIds ∧ state.Connected 1 := by
  let credentials : PeerCredentials := ⟨none, none, none⟩
  let handlers (count : Nat) : List Label := List.replicate count (.handler .succeeded)
  let jobs (count : Nat) : List Label := List.replicate count (.job true)
  let labels : List Label :=
    [.input .asyncStart] ++ jobs 2 ++ handlers 1 ++ jobs 5 ++ handlers 1 ++
      [.input (.acceptCompletes (.socket credentials))] ++ handlers 2 ++
      [.input (.peerCompletes (.accepted 1) (.timer .readyDeadline))] ++ handlers 1 ++ jobs 2
  let view (state : State) : List Handler × List Job × Bool :=
    (state.handlers, state.jobs, decide (1 ∈ state.dispatcher.exposedPeerIds))
  have computed : (Run.steps? (system {}) CalmStep initial labels).map
      (fun result => (view result.1, result.2)) =
      some (([], [], true), [.bound 1, .accepted 1 credentials,
        .verifyPeer 1 credentials true, .peerConnected 1 credentials]) := by
    decide +kernel
  obtain ⟨state, run, seen⟩ := Run.of_view computed
  simp only [view, Prod.mk.injEq, decide_eq_true_eq] at seen
  obtain ⟨unhandled, undone, exposed⟩ := seen
  exact ⟨_, state, run, exposed, (no_phantom_peer {} run).2.1 unhandled undone 1 exposed⟩

/-! ## The phantom -/

/-- A step of a run in which nothing stops the server, and only exposed peers are
closed or asked. -/
def ModestStep (state : State) : Label → Prop
  | .input input => Modest state input
  | _ => True

instance (state : State) (label : Label) : Decidable (ModestStep state label) :=
  match label with
  | .input input => inferInstanceAs (Decidable (Modest state input))
  | .handler _ => .isTrue trivial
  | .job _ => .isTrue trivial
  | .delayed _ => .isTrue trivial

/-- The ready deadline expires after the remote end was closed: its handler is
queued behind the one that closes the socket.  The peer is announced after its
close has been processed, and stays exposed with nothing queued. -/
theorem phantom_peer :
    ∃ log state, Run (system {}) ModestStep initial log state ∧
      state.handlers = [] ∧ state.jobs = [] ∧
      1 ∈ state.dispatcher.exposedPeerIds ∧ 1 ∉ state.io.peers ∧
      .peerConnected 1 ⟨none, none, none⟩ ∈ log ∧ .peerClosed 1 ∉ log := by
  let credentials : PeerCredentials := ⟨none, none, none⟩
  let handlers (count : Nat) : List Label := List.replicate count (.handler .succeeded)
  let jobs (count : Nat) : List Label := List.replicate count (.job true)
  let labels : List Label :=
    [.input .asyncStart] ++ jobs 2 ++ handlers 1 ++ jobs 5 ++ handlers 1 ++
      [.input (.acceptCompletes (.socket credentials))] ++ handlers 2 ++
      [.input (.peerCompletes (.accepted 1) (.read .eof [])),
        .input (.peerCompletes (.accepted 1) (.timer .readyDeadline))] ++ handlers 2 ++ jobs 5 ++
      handlers 4
  let view (state : State) : List Handler × List Job × Bool × List Nat :=
    (state.handlers, state.jobs, decide (1 ∈ state.dispatcher.exposedPeerIds), state.io.peers)
  have computed : (Run.steps? (system {}) ModestStep initial labels).map
      (fun result => (view result.1, result.2)) =
      some (([], [], true, []), [.bound 1, .accepted 1 credentials,
        .verifyPeer 1 credentials true, .peerConnected 1 credentials]) := by
    decide +kernel
  obtain ⟨state, run, seen⟩ := Run.of_view computed
  simp only [view, Prod.mk.injEq, decide_eq_true_eq] at seen
  obtain ⟨unhandled, undone, exposed, gone⟩ := seen
  exact ⟨_, state, run, unhandled, undone, exposed, by simp [gone], by simp [credentials],
    by simp⟩

end UnixDomainStream.Server
