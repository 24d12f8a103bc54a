import Mathlib.Logic.Function.Basic
import UnixDomainStream.Library.FileSystem
import UnixDomainStream.Library.Transition

/-!
# Socket files

The servers of one process bind socket files through one I/O thread.  The runtime
keeps, under the path resolved when a server binds, which server owns the file there.

Between the handlers, symbolic links may be made, retargeted and taken away.
-/

namespace UnixDomainStream.Runtime

open Library

/-- A file: the socket that a server of the process has bound, or anything else. -/
inductive File where
  | socket (creator : Nat)
  | other
  deriving DecidableEq, Repr

/-- What does not change: how the process resolves paths, and the socket path that each
server was given. -/
structure Process where
  resolver : Resolver String
  socketFilePath : Nat → FilePath String

structure ServerState where
  acceptor : Bool
  boundSocketFilePath : Option (FilePath String)
  deriving DecidableEq, Repr

structure State where
  fileSystem : FileSystem String File
  socketFilePathOwners : FilePath String → Option Nat
  servers : Nat → ServerState

/-- No server has bound anything yet. -/
def State.start (fileSystem : FileSystem String File) : State where
  fileSystem
  socketFilePathOwners := fun _ => none
  servers := fun _ => ⟨false, none⟩

/-- How far the calls of a bind handler get. -/
inductive BindOutcome where
  | endpointFailed
  | openFailed
  | bindFailed
  | listenFailed
  | succeeded
  deriving DecidableEq, Repr

inductive Label where
  | bind (server : Nat) (outcome : BindOutcome)
  | closeAcceptor (server : Nat)
  | relink (location : Location String) (target : Option (FilePath String))

inductive Event where
  | bound (server : Nat) (location : Location String)
  | removed (server : Nat) (location : Location String) (creator : Nat)
  deriving DecidableEq, Repr

variable (process : Process)

/-! ## The runtime -/

def makeSocketFilePathKey (fileSystem : FileSystem String File) (path : FilePath String) :
    FilePath String :=
  match process.resolver.weaklyCanonical fileSystem path with
  | some key => key
  | none =>
      match process.resolver.absolutePath fileSystem path with
      | some key => key.lexicallyNormal
      | none => path.lexicallyNormal

def setSocketFilePathOwner (key : FilePath String) (owner : Nat) (state : State) : State :=
  { state with
    socketFilePathOwners := Function.update state.socketFilePathOwners key (some owner) }

def removeSocketFilePath (path : FilePath String) (state : State) : State :=
  { state with
    socketFilePathOwners := Function.update state.socketFilePathOwners
      (makeSocketFilePathKey process state.fileSystem path) none
    fileSystem := process.resolver.remove state.fileSystem path }

/-- The socket file that removing a path takes away. -/
def removedSocket (server : Nat) (fileSystem : FileSystem String File)
    (path : FilePath String) : List Event :=
  match process.resolver.removed? fileSystem path with
  | none => []
  | some location =>
      match fileSystem.lookup location with
      | some (.file (.socket creator)) => [.removed server location creator]
      | _ => []

def removeSocketFilePathIfOwned (key : FilePath String) (owner : Nat) (state : State) :
    State × List Event :=
  if state.socketFilePathOwners key = some owner then
    ({ state with
        socketFilePathOwners := Function.update state.socketFilePathOwners key none
        fileSystem := process.resolver.remove state.fileSystem key },
      removedSocket process owner state.fileSystem key)
  else (state, [])

/-! ## The server -/

def State.withServer (state : State) (server : Nat) (value : ServerState) : State :=
  { state with servers := Function.update state.servers server value }

def closeAcceptor (server : Nat) (state : State) : State × List Event :=
  match (state.servers server).boundSocketFilePath with
  | none => (state.withServer server ⟨false, none⟩, [])
  | some key =>
      let (state, events) := removeSocketFilePathIfOwned process key server state
      (state.withServer server ⟨false, none⟩, events)

def handleBindFailed (server : Nat) (state : State) : State × List Event :=
  closeAcceptor process server state

/-- The place where the system call makes the file: vacant, and not reached through a
link in the last place. -/
def vacancy? (fileSystem : FileSystem String File) (path : FilePath String) :
    Option (Location String) :=
  match process.resolver.resolve fileSystem false path with
  | .vacant location => some location
  | _ => none

def bind (server : Nat) (outcome : BindOutcome) (state : State) : State × List Event :=
  let path := process.socketFilePath server
  if (state.servers server).acceptor then (state, [])
  else if outcome = .endpointFailed then handleBindFailed process server state
  else
    let state := removeSocketFilePath process path state
    let resolved := makeSocketFilePathKey process state.fileSystem path
    let state := state.withServer server { state.servers server with acceptor := true }
    if outcome = .openFailed ∨ outcome = .bindFailed then handleBindFailed process server state
    else
      match vacancy? process state.fileSystem path with
      | none => handleBindFailed process server state
      | some location =>
          match state.fileSystem.create? location (.socket server) with
          | none => handleBindFailed process server state
          | some fileSystem =>
              let state := { state with fileSystem }
              let state := state.withServer server ⟨true, some resolved⟩
              let state := setSocketFilePathOwner resolved server state
              if outcome = .listenFailed then handleBindFailed process server state
              else (state, [.bound server location])

/-- Handlers of the I/O thread, and changes to the links between them. -/
def system : System State Label Event where
  step?
    | state, .bind server outcome => some (bind process server outcome state)
    | state, .closeAcceptor server => some (closeAcceptor process server state)
    | state, .relink location target =>
        some ({ state with fileSystem := state.fileSystem.relink location target }, [])

/-- A file system that holds no socket of the process. -/
def Fresh (fileSystem : FileSystem String File) : Prop :=
  ∀ location creator, fileSystem.lookup location ≠ some (.file (.socket creator))

end UnixDomainStream.Runtime
