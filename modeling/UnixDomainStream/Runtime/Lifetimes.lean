import UnixDomainStream.NotificationScope
import UnixDomainStream.Runtime.Registry

/-!
# Owners and their lives

The registry holds raw pointers to servers that are made, shut down and destroyed.  Paths
resolve as they happen to: a bind handler is given the key that it erases and the key under
which it is kept.  A server is named by its address, which a later one may have again.
-/

namespace UnixDomainStream.Registry

open Library
open UnixDomainStream.Runtime (BindOutcome)

/-- The members of `server_state` on which the registry depends. -/
structure ServerState (Key : Type) where
  notificationScope : NotificationScope := {}
  acceptor : Bool := false
  boundSocketFilePath : Option Key := none
  shutdownStarted : Bool := false
  /-- The I/O handler of `async_shutdown` has run. -/
  cleanedUp : Bool := false

structure State (Key : Type) where
  socketFilePathOwners : Key → Option Nat
  /-- The servers that are alive. -/
  servers : Nat → Option (ServerState Key)

def State.initial (Key : Type) : State Key where
  socketFilePathOwners := fun _ => none
  servers := fun _ => none

/-- The jobs and I/O handlers of the servers, and the ends of their lives.  The acceptor
is closed by a stop, by a failed accept and by a failed health check. -/
inductive Label (Key : Type) where
  | construct (server : Nat)
  | start (server : Nat)
  | stop (server : Nat)
  | bind (server : Nat) (token : Nat) (outcome : BindOutcome) (erased resolved : Key)
  | closeAcceptor (server : Nat)
  | asyncShutdown (server : Nat)
  | cleanUp (server : Nat)
  | destroy (server : Nat)
  deriving DecidableEq, Repr

def State.withServer {Key : Type} (state : State Key) (server : Nat) (value : ServerState Key) :
    State Key :=
  { state with servers := Function.update state.servers server (some value) }

section

variable {Key : Type} [DecidableEq Key]

def setSocketFilePathOwner (key : Key) (owner : Nat) (state : State Key) : State Key :=
  { state with
    socketFilePathOwners := Function.update state.socketFilePathOwners key (some owner) }

def removeSocketFilePath (key : Key) (state : State Key) : State Key :=
  { state with socketFilePathOwners := Function.update state.socketFilePathOwners key none }

def removeSocketFilePathIfOwned (key : Key) (owner : Nat) (state : State Key) : State Key :=
  if state.socketFilePathOwners key = some owner then removeSocketFilePath key state else state

def closeAcceptor (server : Nat) (value : ServerState Key) (state : State Key) : State Key :=
  let state :=
    match value.boundSocketFilePath with
    | none => state
    | some key => removeSocketFilePathIfOwned key server state
  state.withServer server { value with acceptor := false, boundSocketFilePath := none }

def handleBindFailed (server : Nat) (value : ServerState Key) (state : State Key) : State Key :=
  closeAcceptor server value state

/-- The handler posted by `bind()`. -/
def bind (server token : Nat) (outcome : BindOutcome) (erased resolved : Key)
    (value : ServerState Key) (state : State Key) : State Key :=
  if !value.notificationScope.isCurrent token || value.acceptor then state
  else if outcome = .endpointFailed then handleBindFailed server value state
  else
    let state := removeSocketFilePath erased state
    let value := { value with acceptor := true }
    if outcome = .openFailed ∨ outcome = .bindFailed then handleBindFailed server value state
    else
      let value := { value with boundSocketFilePath := some resolved }
      let state := setSocketFilePathOwner resolved server state
      if outcome = .listenFailed then handleBindFailed server value state
      else state.withServer server value

def step? (state : State Key) : Label Key → Option (State Key × List Empty)
  | .construct server =>
      match state.servers server with
      | none => some (state.withServer server {}, [])
      | some _ => none
  | .start server =>
      match state.servers server with
      | none => none
      | some value =>
          -- `async_shutdown` detaches the server from the dispatcher
          if value.shutdownStarted then none
          else some (state.withServer server
            { value with notificationScope := value.notificationScope.start }, [])
  | .stop server =>
      match state.servers server with
      | none => none
      | some value =>
          if value.shutdownStarted then none
          else some (state.withServer server
            { value with notificationScope := value.notificationScope.halt.invalidate }, [])
  | .bind server token outcome erased resolved =>
      (state.servers server).map fun value =>
        (bind server token outcome erased resolved value state, [])
  | .closeAcceptor server =>
      (state.servers server).map fun value => (closeAcceptor server value state, [])
  | .asyncShutdown server =>
      (state.servers server).map fun value =>
        (state.withServer server
          { value with
            notificationScope := value.notificationScope.halt.invalidate
            shutdownStarted := true }, [])
  | .cleanUp server =>
      match state.servers server with
      | none => none
      | some value =>
          if value.shutdownStarted then
            some (closeAcceptor server { value with cleanedUp := true } state, [])
          else none
  | .destroy server =>
      match state.servers server with
      | none => none
      | some value =>
          if value.cleanedUp then
            some ({ state with servers := Function.update state.servers server none }, [])
          else none

def system (Key : Type) [DecidableEq Key] : System (State Key) (Label Key) Empty where
  step? := step?

end

/-! ## What the registry says of the servers -/

section

variable {Key : Type}

@[simp] theorem withServer_servers (state : State Key) (server : Nat) (value : ServerState Key) :
    (state.withServer server value).servers =
      Function.update state.servers server (some value) :=
  rfl

@[simp] theorem withServer_owners (state : State Key) (server : Nat) (value : ServerState Key) :
    (state.withServer server value).socketFilePathOwners = state.socketFilePathOwners :=
  rfl

@[simp] theorem removeSocketFilePath_owners [DecidableEq Key] (key : Key) (state : State Key) :
    (removeSocketFilePath key state).socketFilePathOwners =
      Function.update state.socketFilePathOwners key none :=
  rfl

@[simp] theorem setSocketFilePathOwner_owners [DecidableEq Key] (key : Key) (owner : Nat)
    (state : State Key) :
    (setSocketFilePathOwner key owner state).socketFilePathOwners =
      Function.update state.socketFilePathOwners key (some owner) :=
  rfl

/-- What holds of every server that is alive. -/
structure ServerState.Sound (value : ServerState Key) : Prop where
  bound : value.boundSocketFilePath ≠ none → value.acceptor = true
  halted : value.shutdownStarted = true → value.notificationScope.running = false
  cleanedUp : value.cleanedUp = true → value.shutdownStarted = true ∧ value.acceptor = false

/-- Every entry refers to a server that is alive and has bound its key. -/
structure Sound (state : State Key) : Prop where
  owners : ∀ key server, state.socketFilePathOwners key = some server →
    ∃ value, state.servers server = some value ∧ value.boundSocketFilePath = some key
  servers : ∀ server value, state.servers server = some value → value.Sound

variable {state : State Key} {server : Nat} {value : ServerState Key}

/-- A server that has bound nothing has no entry. -/
theorem Sound.disowned (sound : Sound state) (alive : state.servers server = some value)
    (unbound : value.boundSocketFilePath = none) (key : Key) :
    state.socketFilePathOwners key ≠ some server := by
  intro owner
  obtain ⟨other, found, bound⟩ := sound.owners key server owner
  rw [alive, Option.some.injEq] at found
  rw [← found, unbound] at bound
  cases bound

theorem ServerState.Sound.unbound (sound : value.Sound) (closed : value.acceptor = false) :
    value.boundSocketFilePath = none := by
  by_contra bound
  rw [sound.bound bound] at closed
  cases closed

theorem initial_sound : Sound (State.initial Key) := ⟨nofun, nofun⟩

/-! ## Handlers of one server -/

/-- A handler of a server is in progress with the given members; the other servers are
sound. -/
structure Handling (server : Nat) (value : ServerState Key) (state : State Key) : Prop where
  own : ∀ key, state.socketFilePathOwners key = some server →
    value.boundSocketFilePath = some key
  others : ∀ key owner, owner ≠ server → state.socketFilePathOwners key = some owner →
    ∃ value, state.servers owner = some value ∧ value.boundSocketFilePath = some key
  servers : ∀ other value, other ≠ server → state.servers other = some value → value.Sound

theorem Sound.handling (sound : Sound state) (alive : state.servers server = some value) :
    Handling server value state where
  own key entry := by
    obtain ⟨other, found, bound⟩ := sound.owners key server entry
    rw [alive, Option.some.injEq] at found
    exact found ▸ bound
  others key owner _ entry := sound.owners key owner entry
  servers other value _ found := sound.servers other value found

/-- A server that is not alive has no entry. -/
theorem Sound.handling_new (sound : Sound state) (dead : state.servers server = none) :
    Handling server value state where
  own key entry := by
    obtain ⟨other, found, _⟩ := sound.owners key server entry
    rw [dead] at found
    cases found
  others key owner _ entry := sound.owners key owner entry
  servers other value _ found := sound.servers other value found

namespace Handling

/-- A change to members other than the bound path. -/
theorem congr (handling : Handling server value state) {changed : ServerState Key}
    (bound : changed.boundSocketFilePath = value.boundSocketFilePath) :
    Handling server changed state :=
  ⟨fun key entry => bound ▸ handling.own key entry, handling.others, handling.servers⟩

/-- The members are written back. -/
theorem sound (handling : Handling server value state) (valueSound : value.Sound) :
    Sound (state.withServer server value) where
  owners key owner entry := by
    by_cases same : owner = server
    · subst same
      exact ⟨value, Function.update_self .., handling.own key entry⟩
    · obtain ⟨other, alive, bound⟩ := handling.others key owner same entry
      exact ⟨other, by rw [withServer_servers, Function.update_of_ne same, alive], bound⟩
  servers other found alive := by
    by_cases same : other = server
    · subst same
      rw [withServer_servers, Function.update_self, Option.some.injEq] at alive
      exact alive ▸ valueSound
    · rw [withServer_servers, Function.update_of_ne same] at alive
      exact handling.servers other found same alive

end Handling

/-- A change of the members that says nothing of the socket file. -/
theorem Sound.changed (sound : Sound state) (alive : state.servers server = some value)
    {changed : ServerState Key} (valueSound : changed.Sound)
    (bound : changed.boundSocketFilePath = value.boundSocketFilePath) :
    Sound (state.withServer server changed) :=
  ((sound.handling alive).congr bound).sound valueSound

variable [DecidableEq Key]

namespace Handling

theorem removeSocketFilePath (handling : Handling server value state) (key : Key) :
    Handling server value (removeSocketFilePath key state) := by
  have left : ∀ {other : Key} {owner : Nat},
      (Registry.removeSocketFilePath key state).socketFilePathOwners other = some owner →
        state.socketFilePathOwners other = some owner := by
    intro other owner entry
    by_cases same : other = key
    · simp [same] at entry
    · rwa [removeSocketFilePath_owners, Function.update_of_ne same] at entry
  exact ⟨fun other entry => handling.own other (left entry),
    fun other owner different entry => handling.others other owner different (left entry),
    handling.servers⟩

/-- A server that has bound nothing becomes the owner of its key. -/
theorem setSocketFilePathOwner (handling : Handling server value state)
    (unbound : value.boundSocketFilePath = none) (key : Key) :
    Handling server { value with boundSocketFilePath := some key }
      (setSocketFilePathOwner key server state) where
  own other entry := by
    by_cases same : other = key
    · rw [same]
    · rw [setSocketFilePathOwner_owners, Function.update_of_ne same] at entry
      cases unbound.symm.trans (handling.own other entry)
  others other owner different entry := by
    by_cases same : other = key
    · rw [setSocketFilePathOwner_owners, same, Function.update_self, Option.some.injEq] at entry
      exact absurd entry.symm different
    · rw [setSocketFilePathOwner_owners, Function.update_of_ne same] at entry
      exact handling.others other owner different entry
  servers := handling.servers

/-- Closing the acceptor takes away the server's own entry and no other. -/
theorem closeAcceptor_owners (handling : Handling server value state) {key : Key} {owner : Nat}
    (entry : (closeAcceptor server value state).socketFilePathOwners key = some owner) :
    owner ≠ server ∧ state.socketFilePathOwners key = some owner := by
  unfold closeAcceptor State.withServer at entry
  cases bound : value.boundSocketFilePath with
  | none =>
      simp only [bound] at entry
      refine ⟨?_, entry⟩
      rintro rfl
      cases bound.symm.trans (handling.own key entry)
  | some own =>
      simp only [bound, removeSocketFilePathIfOwned] at entry
      have kept : state.socketFilePathOwners key = some owner ∧
          ¬(key = own ∧ owner = server) := by
        split at entry
        case isTrue owned =>
          by_cases same : key = own
          · simp [same] at entry
          · rw [removeSocketFilePath_owners, Function.update_of_ne same] at entry
            exact ⟨entry, fun both => same both.1⟩
        case isFalse disowned =>
          refine ⟨entry, ?_⟩
          rintro ⟨rfl, rfl⟩
          exact disowned entry
      refine ⟨?_, kept.1⟩
      rintro rfl
      have same := handling.own key kept.1
      rw [bound, Option.some.injEq] at same
      exact kept.2 ⟨same.symm, rfl⟩

end Handling

theorem closeAcceptor_servers (server : Nat) (value : ServerState Key) (state : State Key) :
    (closeAcceptor server value state).servers =
      Function.update state.servers server
        (some { value with acceptor := false, boundSocketFilePath := none }) := by
  unfold closeAcceptor State.withServer removeSocketFilePathIfOwned removeSocketFilePath
  split
  · rfl
  · split <;> rfl

/-- A closed acceptor leaves nothing of the server behind. -/
structure Clean (server : Nat) (state : State Key) : Prop where
  members : ∃ value, state.servers server = some value ∧ value.acceptor = false ∧
    value.boundSocketFilePath = none
  disowned : ∀ key, state.socketFilePathOwners key ≠ some server

theorem Handling.clean (handling : Handling server value state) :
    Clean server (closeAcceptor server value state) where
  members := ⟨{ value with acceptor := false, boundSocketFilePath := none },
    by rw [closeAcceptor_servers, Function.update_self], rfl, rfl⟩
  disowned _ entry := (handling.closeAcceptor_owners entry).1 rfl

theorem Handling.closeAcceptor (handling : Handling server value state)
    (halted : value.shutdownStarted = true → value.notificationScope.running = false)
    (cleanedUp : value.cleanedUp = true → value.shutdownStarted = true) :
    Sound (closeAcceptor server value state) where
  owners key owner entry := by
    obtain ⟨different, entry⟩ := handling.closeAcceptor_owners entry
    obtain ⟨other, alive, bound⟩ := handling.others key owner different entry
    exact ⟨other, by rw [closeAcceptor_servers, Function.update_of_ne different, alive], bound⟩
  servers other found alive := by
    rw [closeAcceptor_servers] at alive
    by_cases same : other = server
    · subst same
      rw [Function.update_self, Option.some.injEq] at alive
      subst alive
      exact ⟨fun bound => absurd rfl bound, halted, fun cleaned => ⟨cleanedUp cleaned, rfl⟩⟩
    · rw [Function.update_of_ne same] at alive
      exact handling.servers other found same alive

/-- A bind handler that gets past its checks and fails. -/
def ServerState.fails (value : ServerState Key) (token : Nat) (outcome : BindOutcome) : Prop :=
  value.notificationScope.isCurrent token = true ∧ value.acceptor = false ∧
    outcome ≠ .succeeded

/-- A bind handler does nothing, or closes what it has opened, or succeeds. -/
inductive Bound (server token : Nat) (outcome : BindOutcome) (value : ServerState Key)
    (state : State Key) : State Key → Prop where
  | refused (stale : value.notificationScope.isCurrent token = false ∨ value.acceptor = true) :
      Bound server token outcome value state state
  | failed (fails : value.fails token outcome) {changed : ServerState Key} {between : State Key}
      (handling : Handling server changed between)
      (same : changed.notificationScope = value.notificationScope ∧
        changed.shutdownStarted = value.shutdownStarted ∧
        changed.cleanedUp = value.cleanedUp) :
      Bound server token outcome value state (closeAcceptor server changed between)
  | succeeded (current : value.notificationScope.isCurrent token = true)
      (succeeds : outcome = .succeeded) (key : Key)
      {between : State Key}
      (handling : Handling server
        { value with acceptor := true, boundSocketFilePath := some key } between) :
      Bound server token outcome value state (between.withServer server
        { value with acceptor := true, boundSocketFilePath := some key })

theorem bind_bound (sound : Sound state) (alive : state.servers server = some value)
    (token : Nat) (outcome : BindOutcome) (erased resolved : Key) :
    Bound server token outcome value state
      (bind server token outcome erased resolved value state) := by
  have handling := sound.handling alive
  have removed := handling.removeSocketFilePath erased
  unfold bind handleBindFailed
  split
  case isTrue stale =>
    refine .refused ?_
    simpa using stale
  case isFalse fresh =>
    simp only [Bool.or_eq_true, Bool.not_eq_true', not_or, Bool.not_eq_false,
      Bool.not_eq_true] at fresh
    obtain ⟨current, closed⟩ := fresh
    have unbound := (sound.servers server value alive).unbound closed
    split
    case isTrue endpoint =>
      exact .failed ⟨current, closed, by simp [endpoint]⟩ handling ⟨rfl, rfl, rfl⟩
    case isFalse =>
      dsimp only
      split
      case isTrue unopened =>
        have other : outcome ≠ .succeeded := by
          rcases unopened with rfl | rfl <;> decide
        have opened : Handling server { value with acceptor := true }
            (removeSocketFilePath erased state) := removed.congr rfl
        exact .failed ⟨current, closed, other⟩ opened ⟨rfl, rfl, rfl⟩
      case isFalse =>
        have named : Handling server
            { value with acceptor := true, boundSocketFilePath := some resolved }
            (setSocketFilePathOwner resolved server (removeSocketFilePath erased state)) :=
          (removed.setSocketFilePathOwner unbound resolved).congr rfl
        split
        case isTrue unheard =>
          exact .failed ⟨current, closed, by simp [unheard]⟩ named ⟨rfl, rfl, rfl⟩
        case isFalse heard =>
          have succeeds : outcome = .succeeded := by
            cases outcome <;> simp_all
          exact .succeeded current succeeds resolved named

theorem Sound.bound (sound : Sound state) (alive : state.servers server = some value)
    {token : Nat} {outcome : BindOutcome} {after : State Key}
    (bound : Bound server token outcome value state after) : Sound after := by
  have members := sound.servers server value alive
  cases bound with
  | refused stale => exact sound
  | failed fails handling same =>
      obtain ⟨scope, shutdown, cleaned⟩ := same
      refine handling.closeAcceptor ?_ ?_
      · rw [scope, shutdown]
        exact members.halted
      · rw [shutdown, cleaned]
        exact fun cleanedUp => (members.cleanedUp cleanedUp).1
  | succeeded current _ key handling =>
      refine handling.sound ⟨fun _ => rfl, members.halted, fun cleanedUp => ?_⟩
      -- A server that has been cleaned up is not running.
      have halted := members.halted (members.cleanedUp cleanedUp).1
      rw [NotificationScope.isCurrent_iff, halted] at current
      cases current.1

/-! ## Whole runs -/

/-- The step closes the acceptor of the server, or is a bind handler of it that fails. -/
inductive GivesUp (state : State Key) (server : Nat) : Label Key → Prop where
  | closeAcceptor : GivesUp state server (.closeAcceptor server)
  | cleanUp : GivesUp state server (.cleanUp server)
  | bind {value : ServerState Key} {token : Nat} {outcome : BindOutcome}
      (alive : state.servers server = some value) (fails : value.fails token outcome)
      (erased resolved : Key) : GivesUp state server (.bind server token outcome erased resolved)

theorem step_sound {state' : State Key} {label : Label Key} {events : List Empty}
    (sound : Sound state)
    (step : (system Key).step? state label = some (state', events)) :
    Sound state' ∧ ∀ server, GivesUp state server label → Clean server state' := by
  cases label with
  | construct server =>
      simp only [system, step?] at step
      split at step
      case h_1 dead =>
        cases step
        refine ⟨(sound.handling_new dead).sound ⟨nofun, nofun, nofun⟩, nofun⟩
      case h_2 => cases step
  | start server =>
      simp only [system, step?] at step
      split at step
      · cases step
      case h_2 value alive =>
        split at step
        · cases step
        case isFalse unstarted =>
          cases step
          have members := sound.servers server value alive
          exact ⟨sound.changed alive ⟨members.bound, fun started => absurd started unstarted,
            members.cleanedUp⟩ rfl, nofun⟩
  | stop server =>
      simp only [system, step?] at step
      split at step
      · cases step
      case h_2 value alive =>
        split at step
        · cases step
        · cases step
          have members := sound.servers server value alive
          exact ⟨sound.changed alive ⟨members.bound, fun _ => rfl, members.cleanedUp⟩ rfl, nofun⟩
  | bind server token outcome erased resolved =>
      obtain ⟨value, alive, same⟩ := Option.map_eq_some_iff.mp step
      cases same
      have bound := bind_bound sound alive token outcome erased resolved
      refine ⟨sound.bound alive bound, fun other gives => ?_⟩
      cases gives with
      | bind found fails =>
          rw [alive, Option.some.injEq] at found
          subst found
          generalize bind server token outcome erased resolved value state = after at bound
          cases bound with
          | refused stale =>
              rcases stale with stale | opened
              · rw [fails.1] at stale
                cases stale
              · rw [fails.2.1] at opened
                cases opened
          | failed _ handling => exact handling.clean
          | succeeded _ succeeds => exact absurd succeeds fails.2.2
  | closeAcceptor server =>
      obtain ⟨value, alive, same⟩ := Option.map_eq_some_iff.mp step
      cases same
      have handling := sound.handling alive
      have members := sound.servers server value alive
      refine ⟨handling.closeAcceptor members.halted fun cleaned => (members.cleanedUp cleaned).1,
        fun other gives => ?_⟩
      cases gives
      exact handling.clean
  | asyncShutdown server =>
      obtain ⟨value, alive, same⟩ := Option.map_eq_some_iff.mp step
      cases same
      have members := sound.servers server value alive
      exact ⟨sound.changed alive ⟨members.bound, fun _ => rfl,
        fun cleaned => ⟨rfl, (members.cleanedUp cleaned).2⟩⟩ rfl, nofun⟩
  | cleanUp server =>
      simp only [system, step?] at step
      split at step
      · cases step
      case h_2 value alive =>
        split at step
        case isTrue started =>
          cases step
          have members := sound.servers server value alive
          have handling : Handling server { value with cleanedUp := true } state :=
            (sound.handling alive).congr rfl
          refine ⟨handling.closeAcceptor members.halted fun _ => started, fun other gives => ?_⟩
          cases gives
          exact handling.clean
        case isFalse => cases step
  | destroy server =>
      simp only [system, step?] at step
      split at step
      · cases step
      case h_2 value alive =>
        split at step
        case isTrue cleaned =>
          cases step
          have members := sound.servers server value alive
          have disowned := sound.disowned alive (members.unbound (members.cleanedUp cleaned).2)
          refine ⟨⟨fun key owner entry => ?_, fun other found => ?_⟩, nofun⟩
          · have different : owner ≠ server := by
              rintro rfl
              exact disowned key entry
            simpa only [Function.update_of_ne different] using sound.owners key owner entry
          · by_cases same : other = server
            · simp [same]
            · simpa only [Function.update_of_ne same] using sound.servers other found
        case isFalse => cases step

theorem run_sound {log : List Empty}
    (run : Run (system Key) (fun _ _ => True) (State.initial Key) log state) : Sound state :=
  run.invariant_state initial_sound fun sound _ step => (step_sound sound step).1

/-- The registry never dangles, and a failed bind leaves nothing behind.  Every entry
refers to a server that is alive, has its acceptor open and has bound the key; a server
that has bound a key has its acceptor open; and a failing bind handler or a close of the
acceptor leaves the server with neither, and without an entry. -/
theorem owners_sound {log : List Empty}
    (run : Run (system Key) (fun _ _ => True) (State.initial Key) log state) :
    (∀ key server, state.socketFilePathOwners key = some server →
      ∃ value, state.servers server = some value ∧ value.boundSocketFilePath = some key ∧
        value.acceptor = true) ∧
    (∀ server value, state.servers server = some value → value.boundSocketFilePath ≠ none →
      value.acceptor = true) ∧
    ∀ label state' events server, (system Key).step? state label = some (state', events) →
      GivesUp state server label →
        (∃ value, state'.servers server = some value ∧ value.acceptor = false ∧
          value.boundSocketFilePath = none) ∧
        ∀ key, state'.socketFilePathOwners key ≠ some server := by
  have sound := run_sound run
  refine ⟨fun key server entry => ?_, fun server value alive => (sound.servers server value alive).1,
    fun label state' events server step gives => ?_⟩
  · obtain ⟨value, alive, bound⟩ := sound.owners key server entry
    exact ⟨value, alive, bound, (sound.servers server value alive).bound (by simp [bound])⟩
  · have clean := (step_sound sound step).2 server gives
    exact ⟨clean.members, clean.disowned⟩

/-- A server binds a key that another one holds and cannot listen, while the other is shut
down and destroyed. -/
theorem owners_sound_listen_failed :
    ∃ state, Run (system Nat) (fun _ _ => True) (State.initial Nat) [] state ∧
      (state.socketFilePathOwners 5 = some 1 ∧ state.servers 0 = none) ∧
      ∀ key server, state.socketFilePathOwners key = some server →
        ∃ value, state.servers server = some value ∧ value.boundSocketFilePath = some key ∧
          value.acceptor = true := by
  let labels : List (Label Nat) :=
    [.construct 0, .start 0, .bind 0 0 .succeeded 5 5, .construct 1, .start 1,
      .bind 1 0 .listenFailed 5 5, .bind 1 0 .succeeded 5 5, .asyncShutdown 0, .cleanUp 0,
      .destroy 0]
  let view (state : State Nat) := (state.socketFilePathOwners 5, (state.servers 0).isNone)
  have computed : (Run.steps? (system Nat) (fun _ _ => True) (State.initial Nat) labels).map
      (fun result => (view result.1, result.2)) = some ((some 1, true), []) := by
    decide
  obtain ⟨state, run, viewed⟩ := Run.of_view computed
  have owner : state.socketFilePathOwners 5 = some 1 := congrArg Prod.fst viewed
  have gone : (state.servers 0).isNone = true := congrArg Prod.snd viewed
  exact ⟨state, run, ⟨owner, Option.isNone_iff_eq_none.mp gone⟩, (owners_sound run).1⟩

end

/-! ## Keys resolved in a file system -/

/-- The members of a server that is running. -/
def ofServer (value : Runtime.ServerState) : ServerState (FilePath String) where
  notificationScope := ⟨true, 0⟩
  acceptor := value.acceptor
  boundSocketFilePath := value.boundSocketFilePath

/-- The registry of servers that are all running and stay alive. -/
def ofRuntime (state : Runtime.State) : State (FilePath String) where
  socketFilePathOwners := state.socketFilePathOwners
  servers server := some (ofServer (state.servers server))

theorem ofRuntime_withServer (state : Runtime.State) (server : Nat) (value : Runtime.ServerState) :
    ofRuntime (state.withServer server value) = (ofRuntime state).withServer server
      (ofServer value) := by
  have servers : (fun other => some (ofServer
      (Function.update state.servers server value other))) =
      Function.update (fun other => some (ofServer (state.servers other))) server
        (some (ofServer value)) := by
    funext other
    by_cases same : other = server <;> simp [same]
  simp [ofRuntime, Runtime.State.withServer, State.withServer, servers]

theorem ofRuntime_closeAcceptor (process : Runtime.Process) (server : Nat)
    (state : Runtime.State) :
    ofRuntime (Runtime.closeAcceptor process server state).1 =
      closeAcceptor server (ofServer (state.servers server)) (ofRuntime state) := by
  unfold Runtime.closeAcceptor closeAcceptor
  cases bound : (state.servers server).boundSocketFilePath with
  | none =>
      simp only [ofServer, bound]
      exact ofRuntime_withServer state server ⟨false, none⟩
  | some key =>
      simp only [ofServer, bound, Runtime.removeSocketFilePathIfOwned, removeSocketFilePathIfOwned]
      by_cases owned : state.socketFilePathOwners key = some server
      · simp only [owned, ofRuntime, if_true]
        exact ofRuntime_withServer _ server ⟨false, none⟩
      · simp only [owned, ofRuntime, if_false]
        exact ofRuntime_withServer _ server ⟨false, none⟩

/-- Writing the members back before closing the acceptor makes no difference. -/
theorem closeAcceptor_withServer {Key : Type} [DecidableEq Key] (server : Nat)
    (value other : ServerState Key) (state : State Key) :
    closeAcceptor server value (state.withServer server other) =
      closeAcceptor server value state := by
  unfold closeAcceptor removeSocketFilePathIfOwned removeSocketFilePath State.withServer
  split
  · simp
  · simp only
    split <;> simp

theorem ofRuntime_setSocketFilePathOwner (key : FilePath String) (owner : Nat)
    (state : Runtime.State) :
    ofRuntime (Runtime.setSocketFilePathOwner key owner state) =
      setSocketFilePathOwner key owner (ofRuntime state) := rfl

/-- The runtime's bind handler, once the path is free and the acceptor open. -/
theorem bind_opened {process : Runtime.Process} {server : Nat} {outcome : BindOutcome}
    {state removed : Runtime.State} {resolved : FilePath String}
    (removes : Runtime.removeSocketFilePath process (process.socketFilePath server) state = removed)
    (resolves : Runtime.makeSocketFilePathKey process removed.fileSystem
      (process.socketFilePath server) = resolved)
    (acceptor : (state.servers server).acceptor = false) (endpoint : outcome ≠ .endpointFailed)
    (unopened : ¬ (outcome = .openFailed ∨ outcome = .bindFailed)) :
    Runtime.bind process server outcome state =
      match Runtime.vacancy? process removed.fileSystem (process.socketFilePath server) with
      | none => Runtime.closeAcceptor process server
          (removed.withServer server { removed.servers server with acceptor := true })
      | some location =>
          match removed.fileSystem.create? location (.socket server) with
          | none => Runtime.closeAcceptor process server
              (removed.withServer server { removed.servers server with acceptor := true })
          | some fileSystem =>
              let bound := Runtime.setSocketFilePathOwner resolved server
                (Runtime.State.withServer
                  { removed.withServer server
                      { removed.servers server with acceptor := true } with fileSystem }
                  server ⟨true, some resolved⟩)
              if outcome = .listenFailed then Runtime.closeAcceptor process server bound
              else (bound, [.bound server location]) := by
  subst removes resolves
  simp only [Runtime.bind, acceptor, endpoint, unopened, Runtime.handleBindFailed]
  rfl

/-- The runtime's bind handler is one of the registry, with the keys that it resolves. -/
theorem ofRuntime_bind (process : Runtime.Process) (server : Nat) (outcome : BindOutcome)
    (state : Runtime.State) :
    ∃ outcome' erased resolved, ofRuntime (Runtime.bind process server outcome state).1 =
      bind server 0 outcome' erased resolved (ofServer (state.servers server))
        (ofRuntime state) := by
  let path := process.socketFilePath server
  let erased := Runtime.makeSocketFilePathKey process state.fileSystem path
  let removed := Runtime.removeSocketFilePath process path state
  let resolved := Runtime.makeSocketFilePathKey process removed.fileSystem path
  have current : (ofServer (state.servers server)).notificationScope.isCurrent 0 = true := rfl
  -- A handler that fails once the acceptor is made.
  have failed : ofRuntime (Runtime.closeAcceptor process server
      (removed.withServer server { removed.servers server with acceptor := true })).1 =
      closeAcceptor server { ofServer (state.servers server) with acceptor := true }
        (removeSocketFilePath erased (ofRuntime state)) := by
    rw [ofRuntime_closeAcceptor, ofRuntime_withServer, closeAcceptor_withServer]
    simp only [Runtime.withServer_servers, Function.update_self]
    rfl
  cases acceptor : (state.servers server).acceptor with
  | true =>
      refine ⟨outcome, erased, resolved, ?_⟩
      simp [Runtime.bind, bind, ofServer, acceptor]
  | false =>
      have closed : (ofServer (state.servers server)).acceptor = false := acceptor
      by_cases endpoint : outcome = .endpointFailed
      · refine ⟨.endpointFailed, erased, resolved, ?_⟩
        subst endpoint
        simp only [Runtime.bind, bind, acceptor, current, closed, handleBindFailed,
          Runtime.handleBindFailed]
        exact ofRuntime_closeAcceptor process server state
      by_cases unopened : outcome = .openFailed ∨ outcome = .bindFailed
      · refine ⟨outcome, erased, resolved, ?_⟩
        simp only [Runtime.bind, bind, acceptor, current, closed, endpoint, unopened,
          handleBindFailed, Runtime.handleBindFailed]
        exact failed
      have refused : ofRuntime (Runtime.closeAcceptor process server
          (removed.withServer server { removed.servers server with acceptor := true })).1 =
          bind server 0 .bindFailed erased resolved (ofServer (state.servers server))
            (ofRuntime state) := by
        simp only [bind, current, closed, handleBindFailed]
        exact failed
      rw [@bind_opened process server outcome state removed resolved rfl rfl acceptor endpoint
        unopened]
      split
      · exact ⟨.bindFailed, erased, resolved, refused⟩
      · split
        · exact ⟨.bindFailed, erased, resolved, refused⟩
        case h_2 fileSystem _ =>
          refine ⟨outcome, erased, resolved, ?_⟩
          have made : ofRuntime (Runtime.setSocketFilePathOwner resolved server
              (Runtime.State.withServer
                { removed.withServer server
                    { removed.servers server with acceptor := true } with fileSystem }
                server ⟨true, some resolved⟩)) =
              (setSocketFilePathOwner resolved server (removeSocketFilePath erased
                (ofRuntime state))).withServer server
                  { ofServer (state.servers server) with
                    acceptor := true, boundSocketFilePath := some resolved } := by
            rw [ofRuntime_setSocketFilePathOwner, ofRuntime_withServer]
            have written : ofRuntime { removed.withServer server
                { removed.servers server with acceptor := true } with fileSystem } =
                (removeSocketFilePath erased (ofRuntime state)).withServer server
                  { ofServer (state.servers server) with acceptor := true } :=
              ofRuntime_withServer removed server { removed.servers server with acceptor := true }
            rw [written]
            simp [State.withServer, setSocketFilePathOwner, ofServer]
          by_cases unheard : outcome = .listenFailed
          · subst unheard
            simp only [if_true, ofRuntime_closeAcceptor, made, closeAcceptor_withServer, bind,
              current, closed, handleBindFailed]
            simp [ofServer, Runtime.setSocketFilePathOwner]
          · simp only [unheard, if_false, made, bind, current, closed, endpoint, unopened]
            rfl

end UnixDomainStream.Registry
