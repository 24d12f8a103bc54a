import UnixDomainStream.Runtime

/-!
# The registry of owners

What a bind handler and a close of the acceptor can do to the runtime, and what they
always keep: an owner has the acceptor open and remembers the key it is kept under.
-/

namespace UnixDomainStream.Runtime

open Library

variable {process : Process} {state : State} {server : Nat}

/-! ## Steps -/

@[simp] theorem withServer_servers (state : State) (server : Nat) (value : ServerState) :
    (state.withServer server value).servers = Function.update state.servers server value :=
  rfl

@[simp] theorem withServer_fileSystem (state : State) (server : Nat) (value : ServerState) :
    (state.withServer server value).fileSystem = state.fileSystem :=
  rfl

@[simp] theorem withServer_owners (state : State) (server : Nat) (value : ServerState) :
    (state.withServer server value).socketFilePathOwners = state.socketFilePathOwners :=
  rfl

/-- A close of the acceptor gives up the file that the server owns, if any. -/
inductive Closed (process : Process) (server : Nat) (state : State) :
    State × List Event → Prop where
  | free (disowned : ∀ key, (state.servers server).boundSocketFilePath = some key →
        state.socketFilePathOwners key ≠ some server) :
      Closed process server state (state.withServer server ⟨false, none⟩, [])
  | owned (key : FilePath String)
      (bound : (state.servers server).boundSocketFilePath = some key)
      (owner : state.socketFilePathOwners key = some server) :
      Closed process server state
        (State.withServer
          { state with
            socketFilePathOwners := Function.update state.socketFilePathOwners key none
            fileSystem := process.resolver.remove state.fileSystem key }
          server ⟨false, none⟩,
        removedSocket process server state.fileSystem key)

theorem closeAcceptor_closed (process : Process) (server : Nat) (state : State) :
    Closed process server state (closeAcceptor process server state) := by
  unfold closeAcceptor
  cases bound : (state.servers server).boundSocketFilePath with
  | none => exact .free (by simp [bound])
  | some key =>
      simp only [removeSocketFilePathIfOwned]
      split
      case isTrue owner => exact .owned key bound owner
      case isFalse other =>
        refine .free ?_
        intro key' same
        rw [bound] at same
        cases same
        exact other

/-- Whether the acceptor is open makes no difference to closing it. -/
theorem closeAcceptor_withServer (process : Process) (server : Nat) (state : State)
    (acceptor : Bool) :
    closeAcceptor process server (state.withServer server
      { state.servers server with acceptor }) = closeAcceptor process server state := by
  unfold closeAcceptor
  simp only [withServer_servers, Function.update_self]
  cases (state.servers server).boundSocketFilePath with
  | none => simp [State.withServer]
  | some key =>
      by_cases owner : state.socketFilePathOwners key = some server <;>
        simp [removeSocketFilePathIfOwned, owner, State.withServer]

/-- The state when the file is made and owned. -/
def boundState (process : Process) (server : Nat) (state : State)
    (fileSystem : FileSystem String File) : State :=
  setSocketFilePathOwner (makeSocketFilePathKey process state.fileSystem
      (process.socketFilePath server)) server
    (State.withServer { state with fileSystem } server
      ⟨true, some (makeSocketFilePathKey process state.fileSystem
        (process.socketFilePath server))⟩)

/-- The path of a server leads to a vacant place, and its socket file is made there. -/
structure Made (process : Process) (server : Nat) (state : State) (location : Location String)
    (fileSystem : FileSystem String File) : Prop where
  vacant : process.resolver.resolve state.fileSystem false (process.socketFilePath server) =
    .vacant location
  created : state.fileSystem.create? location (.socket server) = some fileSystem

/-- What a bind handler does: nothing, a close, a removal and a close, or a new file,
which is closed again when it cannot be listened to. -/
inductive Bound (process : Process) (server : Nat) (state : State) :
    BindOutcome → State × List Event → Prop where
  | already (outcome : BindOutcome) (acceptor : (state.servers server).acceptor = true) :
      Bound process server state outcome (state, [])
  | endpointFailed (acceptor : (state.servers server).acceptor = false)
      {result : State × List Event} (closed : Closed process server state result) :
      Bound process server state .endpointFailed result
  | failed (outcome : BindOutcome) (acceptor : (state.servers server).acceptor = false)
      (endpoint : outcome ≠ .endpointFailed) {result : State × List Event}
      (closed : Closed process server
        (removeSocketFilePath process (process.socketFilePath server) state) result) :
      Bound process server state outcome result
  | listenFailed (acceptor : (state.servers server).acceptor = false)
      {location : Location String} {fileSystem : FileSystem String File}
      (made : Made process server
        (removeSocketFilePath process (process.socketFilePath server) state) location fileSystem)
      {result : State × List Event}
      (closed : Closed process server (boundState process server
        (removeSocketFilePath process (process.socketFilePath server) state) fileSystem) result) :
      Bound process server state .listenFailed result
  | succeeded (acceptor : (state.servers server).acceptor = false)
      {location : Location String} {fileSystem : FileSystem String File}
      (made : Made process server
        (removeSocketFilePath process (process.socketFilePath server) state) location fileSystem) :
      Bound process server state .succeeded
        (boundState process server
          (removeSocketFilePath process (process.socketFilePath server) state) fileSystem,
          [.bound server location])

theorem bind_bound (process : Process) (server : Nat) (outcome : BindOutcome) (state : State) :
    Bound process server state outcome (bind process server outcome state) := by
  unfold bind handleBindFailed
  simp only
  cases acceptor : (state.servers server).acceptor with
  | true =>
      rw [if_pos rfl]
      exact .already outcome acceptor
  | false =>
      rw [if_neg (by simp)]
      split
      case isTrue endpointFailed =>
        subst endpointFailed
        exact .endpointFailed acceptor (closeAcceptor_closed ..)
      case isFalse endpoint =>
        rw [closeAcceptor_withServer]
        split
        case isTrue => exact .failed outcome acceptor endpoint (closeAcceptor_closed ..)
        case isFalse opened =>
          simp only [withServer_fileSystem]
          split
          case h_1 => exact .failed outcome acceptor endpoint (closeAcceptor_closed ..)
          case h_2 location vacancy =>
            split
            case h_1 => exact .failed outcome acceptor endpoint (closeAcceptor_closed ..)
            case h_2 fileSystem created =>
              have made : Made process server
                  (removeSocketFilePath process (process.socketFilePath server) state)
                  location fileSystem := by
                refine ⟨?_, created⟩
                unfold vacancy? at vacancy
                split at vacancy
                · next found =>
                    cases vacancy
                    exact found
                · cases vacancy
              cases outcome with
              | endpointFailed => exact absurd rfl endpoint
              | openFailed => simp at opened
              | bindFailed => simp at opened
              | listenFailed =>
                  have closed := closeAcceptor_closed process server (boundState process server
                    (removeSocketFilePath process (process.socketFilePath server) state) fileSystem)
                  refine .listenFailed acceptor made ?_
                  simpa [boundState, State.withServer] using closed
              | succeeded =>
                  have bound := Bound.succeeded acceptor made
                  simpa [boundState, State.withServer] using bound

/-- What a step does. -/
inductive Stepped (process : Process) (state : State) : Label → State × List Event → Prop where
  | bind {server : Nat} {outcome : BindOutcome} {result : State × List Event}
      (bound : Bound process server state outcome result) :
      Stepped process state (.bind server outcome) result
  | closeAcceptor {server : Nat} {result : State × List Event}
      (closed : Closed process server state result) :
      Stepped process state (.closeAcceptor server) result
  | relink (location : Location String) (target : Option (FilePath String)) :
      Stepped process state (.relink location target)
        ({ state with fileSystem := state.fileSystem.relink location target }, [])

theorem step_stepped {label : Label} {result : State × List Event}
    (step : (system process).step? state label = some result) :
    Stepped process state label result := by
  cases label with
  | bind server outcome =>
      have bound := bind_bound process server outcome state
      rw [Option.some.inj step] at bound
      exact .bind bound
  | closeAcceptor server =>
      have closed := closeAcceptor_closed process server state
      rw [Option.some.inj step] at closed
      exact .closeAcceptor closed
  | relink location target =>
      cases step
      exact .relink location target

/-! ## What the registry says of the servers -/

/-- A server without an acceptor has bound nothing, and an owner has bound what it owns. -/
structure Registered (state : State) : Prop where
  idle : ∀ server, (state.servers server).acceptor = false →
    (state.servers server).boundSocketFilePath = none
  bound : ∀ key server, state.socketFilePathOwners key = some server →
    (state.servers server).boundSocketFilePath = some key

theorem start_registered (fileSystem : FileSystem String File) :
    Registered (State.start fileSystem) where
  idle := by simp [State.start]
  bound := by simp [State.start]

/-- An owner that an erased entry leaves was there before. -/
theorem owner_of_erased {owners : FilePath String → Option Nat} {erased key : FilePath String}
    {owner : Nat} (left : Function.update owners erased none key = some owner) :
    key ≠ erased ∧ owners key = some owner := by
  by_cases same : key = erased
  · subst same
    simp at left
  · exact ⟨same, by rwa [Function.update_of_ne same] at left⟩

theorem Registered.removeSocketFilePath (registered : Registered state) (path : FilePath String) :
    Registered (removeSocketFilePath process path state) where
  idle := registered.idle
  bound key server owner := registered.bound key server (owner_of_erased owner).2

theorem Registered.closed {result : State × List Event} (registered : Registered state)
    (closed : Closed process server state result) : Registered result.1 := by
  cases closed with
  | free disowned =>
      constructor
      · intro other acceptor
        by_cases same : other = server
        · simp [same]
        · simpa [same] using registered.idle other (by simpa [same] using acceptor)
      · intro key other owner
        by_cases same : other = server
        · subst same
          exact absurd owner (disowned key (registered.bound key other owner))
        · simpa [same] using registered.bound key other owner
  | owned key bound owner =>
      constructor
      · intro other acceptor
        by_cases same : other = server
        · simp [same]
        · simpa [same] using registered.idle other (by simpa [same] using acceptor)
      · intro key' other owner'
        simp only [withServer_owners] at owner'
        obtain ⟨different, owner'⟩ := owner_of_erased owner'
        by_cases same : other = server
        · subst same
          rw [registered.bound key' other owner'] at bound
          cases bound
          exact absurd rfl different
        · simpa [same] using registered.bound key' other owner'

/-- A server without an acceptor owns nothing. -/
theorem Registered.disowned (registered : Registered state)
    (acceptor : (state.servers server).acceptor = false) (key : FilePath String) :
    state.socketFilePathOwners key ≠ some server := by
  intro owner
  have bound := registered.bound key server owner
  rw [registered.idle server acceptor] at bound
  cases bound

theorem Registered.boundState (registered : Registered state)
    (acceptor : (state.servers server).acceptor = false)
    (fileSystem : FileSystem String File) :
    Registered (boundState process server state fileSystem) where
  idle other closed := by
    by_cases same : other = server
    · simp [Runtime.boundState, setSocketFilePathOwner, same] at closed
    · simp only [Runtime.boundState, setSocketFilePathOwner, withServer_servers,
        Function.update_of_ne same] at closed ⊢
      exact registered.idle other closed
  bound key other owner := by
    simp only [Runtime.boundState, setSocketFilePathOwner, withServer_servers,
      withServer_owners] at owner ⊢
    by_cases same : key = makeSocketFilePathKey process state.fileSystem
        (process.socketFilePath server)
    · subst same
      rw [Function.update_self, Option.some_inj] at owner
      simp [← owner]
    · rw [Function.update_of_ne same] at owner
      have different : other ≠ server := by
        rintro rfl
        exact registered.disowned acceptor key owner
      rw [Function.update_of_ne different]
      exact registered.bound key other owner

end UnixDomainStream.Runtime
