import UnixDomainStream.Runtime.Registry

/-!
# Nobody removes another server's socket file

A key is either the location of the file from the root or, for a path that is a single
name, that name: a relative path that does not exist yet stays relative.  The two
spellings of one file are different keys.  As long as no server binds under one of them
a file whose other key is still held, a server removes only its own file.
-/

namespace UnixDomainStream.Runtime

open Library

variable {process : Process} {state : State} {server : Nat}

/-! ## Keys -/

/-- The name in the current directory that a path leads to, if it leads there. -/
def nameInCurrentDirectory? (process : Process) (fileSystem : FileSystem String File)
    (path : FilePath String) : Option String :=
  match process.resolver.resolve fileSystem false path with
  | .found (name :: above) =>
      if above = process.resolver.currentDirectory then some name else none
  | .vacant (name :: above) =>
      if above = process.resolver.currentDirectory then some name else none
  | _ => none

theorem nameInCurrentDirectory_of_vacant {path gone : FilePath String} {name : String}
    (vacant : process.resolver.resolve (process.resolver.remove state.fileSystem gone) false path =
      .vacant (name :: process.resolver.currentDirectory)) :
    nameInCurrentDirectory? process state.fileSystem path = some name := by
  rcases Resolver.resolve_remove vacant with before | before <;>
    simp [nameInCurrentDirectory?, before]

/-- The key of a vacant place is its location, or the path that is a single name. -/
theorem makeSocketFilePathKey_of_vacant {fileSystem : FileSystem String File}
    {path : FilePath String} {location : Location String}
    (vacant : process.resolver.resolve fileSystem false path = .vacant location) :
    makeSocketFilePathKey process fileSystem path = .ofLocation location ∧
        (∀ other, path ≠ .bare other) ∨
      ∃ name, location = name :: process.resolver.currentDirectory ∧ path = .bare name ∧
        makeSocketFilePathKey process fileSystem path = .bare name := by
  have proper := (Resolver.leaf_of_vacant vacant).1
  cases location with
  | nil => exact absurd rfl proper
  | cons name above =>
      rcases Resolver.weaklyCanonical_of_vacant vacant with
        ⟨canonical, long⟩ | ⟨rfl, rfl, canonical⟩
      · exact .inl ⟨by simp [makeSocketFilePathKey, canonical], long⟩
      · exact .inr ⟨name, rfl, rfl, by simp [makeSocketFilePathKey, canonical]⟩

theorem spells_of_vacant {fileSystem : FileSystem String File}
    {path : FilePath String} {location : Location String}
    (vacant : process.resolver.resolve fileSystem false path = .vacant location) :
    process.resolver.Spells location (makeSocketFilePathKey process fileSystem path) := by
  rcases makeSocketFilePathKey_of_vacant vacant with ⟨key, _⟩ | ⟨name, same, _, key⟩
  · exact .inl key
  · exact .inr ⟨name, same, key⟩

theorem makeSocketFilePathKey_of_file {fileSystem : FileSystem String File}
    {path : FilePath String} {location : Location String} {file : File}
    (resolved : process.resolver.resolve fileSystem false path = .found location)
    (there : fileSystem.lookup location = some (.file file)) :
    makeSocketFilePathKey process fileSystem path = .ofLocation location := by
  simp [makeSocketFilePathKey, Resolver.weaklyCanonical_of_file resolved there]

/-! ## The invariant -/

/-- No server binds a file of the current directory under a longer path while another
one is registered under its name alone. -/
def NamedAlike (process : Process) (state : State) : Label → Prop
  | .bind server .succeeded =>
      (state.servers server).acceptor = false →
        ∀ name ∈ nameInCurrentDirectory? process state.fileSystem (process.socketFilePath server),
          process.socketFilePath server = .bare name ∨
            state.socketFilePathOwners (.bare name) = none
  | _ => True

instance (process : Process) (state : State) (label : Label) :
    Decidable (NamedAlike process state label) :=
  match label with
  | .bind _ .succeeded => inferInstanceAs (Decidable (_ → ∀ name ∈ _, _ ∨ _))
  | .bind _ .endpointFailed => .isTrue trivial
  | .bind _ .openFailed => .isTrue trivial
  | .bind _ .bindFailed => .isTrue trivial
  | .bind _ .listenFailed => .isTrue trivial
  | .closeAcceptor _ => .isTrue trivial
  | .relink _ _ => .isTrue trivial

/-- Every key leads to no file but its owner's. -/
structure Owned (process : Process) (state : State) : Prop extends Registered state where
  spelled : ∀ key owner, state.socketFilePathOwners key = some owner →
    ∃ location, process.resolver.Spells location key
  rooted : ∀ location owner, state.socketFilePathOwners (.ofLocation location) = some owner →
    state.fileSystem.lookup location = some (.file (.socket owner))
  bare : ∀ name owner creator, state.socketFilePathOwners (.bare name) = some owner →
    state.fileSystem.lookup (name :: process.resolver.currentDirectory) =
      some (.file (.socket creator)) → creator = owner

theorem start_owned (fileSystem : FileSystem String File) :
    Owned process (State.start fileSystem) where
  toRegistered := start_registered fileSystem
  spelled := by simp [State.start]
  rooted := by simp [State.start]
  bare := by simp [State.start]

/-- With fewer keys and fewer sockets, the keys that are left still lead to their owners'
files, if these are left. -/
theorem Owned.fewer {after : State} (owned : Owned process state) (registered : Registered after)
    (owners : ∀ key owner, after.socketFilePathOwners key = some owner →
      state.socketFilePathOwners key = some owner)
    (sockets : ∀ location creator,
      after.fileSystem.lookup location = some (.file (.socket creator)) →
        state.fileSystem.lookup location = some (.file (.socket creator)))
    (left : ∀ location owner, after.socketFilePathOwners (.ofLocation location) = some owner →
      state.fileSystem.lookup location = some (.file (.socket owner)) →
        after.fileSystem.lookup location = some (.file (.socket owner))) :
    Owned process after where
  toRegistered := registered
  spelled key owner held := owned.spelled key owner (owners key owner held)
  rooted location owner held :=
    left location owner held (owned.rooted location owner (owners _ owner held))
  bare name owner creator held there :=
    owned.bare name owner creator (owners _ owner held) (sockets _ creator there)

/-- Erasing the key of a path goes with removing the file that has this key. -/
theorem Owned.removeSocketFilePath (owned : Owned process state) (path : FilePath String) :
    Owned process (removeSocketFilePath process path state) := by
  refine owned.fewer (owned.toRegistered.removeSocketFilePath path) ?_ ?_ ?_
  · intro key owner held
    exact (owner_of_erased held).2
  · intro location creator there
    exact (Resolver.lookup_remove.mp there).1
  · intro location owner held there
    refine Resolver.lookup_remove.mpr ⟨there, ?_⟩
    intro gone
    have key := makeSocketFilePathKey_of_file (Resolver.resolve_of_removed gone there) there
    exact (owner_of_erased held).1 key.symm

/-- What is removed under a key is the file of its owner. -/
theorem Owned.removed {key : FilePath String} {location : Location String} {creator : Nat}
    (owned : Owned process state) (owner : state.socketFilePathOwners key = some server)
    (gone : process.resolver.removed? state.fileSystem key = some location)
    (there : state.fileSystem.lookup location = some (.file (.socket creator))) :
    creator = server := by
  have found := Resolver.resolve_of_removed gone there
  obtain ⟨place, spells⟩ := owned.spelled key server owner
  rcases spells with rfl | ⟨name, rfl, rfl⟩
  · have present := owned.rooted place server owner
    cases place with
    | nil => cases present
    | cons name above =>
        rw [Resolver.resolve_ofLocation present] at found
        cases found
        rw [present] at there
        cases there
        rfl
  · cases Resolver.found_of_resolve_bare found
    exact owned.bare name server creator owner there

theorem mem_removedSocket {fileSystem : FileSystem String File} {path : FilePath String}
    {event : Event} (member : event ∈ removedSocket process server fileSystem path) :
    ∃ location creator, event = .removed server location creator ∧
      process.resolver.removed? fileSystem path = some location ∧
      fileSystem.lookup location = some (.file (.socket creator)) := by
  unfold removedSocket at member
  split at member
  · cases member
  · next location gone =>
      split at member
      · next creator there =>
          rw [List.mem_singleton] at member
          exact ⟨location, creator, member, gone, there⟩
      · cases member

/-- A server that closes gives up its key, and its file with it. -/
theorem Owned.closed {result : State × List Event} (owned : Owned process state)
    (closed : Closed process server state result) : Owned process result.1 := by
  have registered := owned.toRegistered.closed closed
  cases closed with
  | free disowned =>
      exact owned.fewer registered (fun _ _ held => held) (fun _ _ there => there)
        (fun _ _ _ there => there)
  | owned key bound owner =>
      refine owned.fewer registered ?_ ?_ ?_
      · intro other held owned
        exact (owner_of_erased owned).2
      · intro location creator there
        exact (Resolver.lookup_remove.mp there).1
      · intro location other held there
        obtain ⟨different, before⟩ := owner_of_erased held
        refine Resolver.lookup_remove.mpr ⟨there, ?_⟩
        intro gone
        -- The file removed is the closing server's, which has no second key.
        have same := owned.removed owner gone there
        subst same
        have key' := owned.toRegistered.bound _ _ before
        rw [bound] at key'
        cases key'
        exact different rfl

theorem Owned.closed_removes {result : State × List Event} (owned : Owned process state)
    (closed : Closed process server state result) {event : Event} (member : event ∈ result.2) :
    ∃ location, event = .removed server location server := by
  cases closed with
  | free disowned => cases member
  | owned key bound owner =>
      obtain ⟨location, creator, rfl, gone, there⟩ := mem_removedSocket member
      rw [owned.removed owner gone there]
      exact ⟨location, rfl⟩

/-! ## A new file -/

section Made

variable {location : Location String} {fileSystem : FileSystem String File}

theorem boundState_owners (process : Process) (server : Nat) (state : State)
    (fileSystem : FileSystem String File) :
    (boundState process server state fileSystem).socketFilePathOwners =
      Function.update state.socketFilePathOwners (makeSocketFilePathKey process state.fileSystem
        (process.socketFilePath server)) (some server) :=
  rfl

theorem boundState_fileSystem (process : Process) (server : Nat) (state : State)
    (fileSystem : FileSystem String File) :
    (boundState process server state fileSystem).fileSystem = fileSystem :=
  rfl

theorem boundState_server (process : Process) (server : Nat) (state : State)
    (fileSystem : FileSystem String File) :
    (boundState process server state fileSystem).servers server =
      ⟨true, some (makeSocketFilePathKey process state.fileSystem
        (process.socketFilePath server))⟩ := by
  simp [boundState, setSocketFilePathOwner]

/-- Nothing was registered from the root where a file can be made. -/
theorem Owned.unregistered (owned : Owned process state)
    (made : Made process server state location fileSystem) :
    state.socketFilePathOwners (.ofLocation location) = none := by
  cases held : state.socketFilePathOwners (.ofLocation location) with
  | none => rfl
  | some owner =>
      have there := owned.rooted location owner held
      rw [FileSystem.vacant_of_create made.created] at there
      cases there

/-- The new file is under the key just set, and under no other. -/
theorem Owned.made (owned : Owned process state)
    (acceptor : (state.servers server).acceptor = false)
    (made : Made process server state location fileSystem)
    (alike : ∀ name, location = name :: process.resolver.currentDirectory →
      process.socketFilePath server = .bare name ∨
        state.socketFilePathOwners (.bare name) = none) :
    Owned process (boundState process server state fileSystem) where
  toRegistered := owned.toRegistered.boundState acceptor fileSystem
  spelled key owner held := by
    rw [boundState_owners] at held
    by_cases same : key = makeSocketFilePathKey process state.fileSystem
        (process.socketFilePath server)
    · exact ⟨location, same ▸ spells_of_vacant made.vacant⟩
    · rw [Function.update_of_ne same] at held
      exact owned.spelled key owner held
  rooted place owner held := by
    rw [boundState_owners] at held
    rw [boundState_fileSystem, FileSystem.lookup_create made.created]
    by_cases same : FilePath.ofLocation place = makeSocketFilePathKey process state.fileSystem
        (process.socketFilePath server)
    · have spells := spells_of_vacant made.vacant
      rw [← same] at spells
      rw [← same, Function.update_self] at held
      cases held
      rw [if_pos (Resolver.Spells.unique (.inl rfl) spells)]
    · rw [Function.update_of_ne same] at held
      have different : place ≠ location := by
        rintro rfl
        rw [owned.unregistered made] at held
        cases held
      rw [if_neg different]
      exact owned.rooted place owner held
  bare name owner creator held there := by
    rw [boundState_owners] at held
    rw [boundState_fileSystem, FileSystem.lookup_create made.created] at there
    by_cases same : FilePath.bare name = makeSocketFilePathKey process state.fileSystem
        (process.socketFilePath server)
    · rw [← same, Function.update_self] at held
      cases held
      have spells := spells_of_vacant made.vacant
      rw [← same] at spells
      rw [if_pos (Resolver.Spells.unique (.inr ⟨name, rfl, rfl⟩) spells)] at there
      cases there
      rfl
    · rw [Function.update_of_ne same] at held
      split at there
      case isTrue here =>
        -- The file would be registered under its name by another server.
        rcases makeSocketFilePathKey_of_vacant made.vacant with ⟨_, long⟩ | ⟨other, new, _, key⟩
        · rcases alike name here.symm with short | free
          · exact absurd short (long name)
          · rw [free] at held
            cases held
        · rw [← here] at new
          cases new
          exact absurd key.symm same
      case isFalse elsewhere => exact owned.bare name owner creator held there

theorem Made.lookup (made : Made process server state location fileSystem) :
    fileSystem.lookup location = some (.file (.socket server)) := by
  rw [FileSystem.lookup_create made.created, if_pos rfl]

/-- The new key leads to the new file. -/
theorem Made.removed (made : Made process server state location fileSystem) :
    process.resolver.removed? fileSystem (makeSocketFilePathKey process state.fileSystem
      (process.socketFilePath server)) = some location :=
  Resolver.removed_of_spells (spells_of_vacant made.vacant) made.lookup

/-- A close that follows the making of the file removes this file. -/
theorem Made.closed {result : State × List Event}
    (made : Made process server state location fileSystem)
    (closed : Closed process server (boundState process server state fileSystem) result) :
    result = (State.withServer
      { boundState process server state fileSystem with
        socketFilePathOwners := Function.update state.socketFilePathOwners
          (makeSocketFilePathKey process state.fileSystem (process.socketFilePath server)) none
        fileSystem := process.resolver.remove fileSystem
          (makeSocketFilePathKey process state.fileSystem (process.socketFilePath server)) }
      server ⟨false, none⟩, [.removed server location server]) := by
  cases closed with
  | free disowned =>
      rw [boundState_server, boundState_owners] at disowned
      exact absurd (Function.update_self ..) (disowned _ rfl)
  | owned key bound owner =>
      rw [boundState_server, Option.some_inj] at bound
      subst bound
      simp [boundState_owners, boundState_fileSystem, removedSocket, made.removed, made.lookup]

/-- When the new file cannot be listened to, it and its key are gone again. -/
theorem Owned.unmade {result : State × List Event} (owned : Owned process state)
    (acceptor : (state.servers server).acceptor = false)
    (made : Made process server state location fileSystem)
    (closed : Closed process server (boundState process server state fileSystem) result) :
    Owned process result.1 := by
  have registered := (owned.toRegistered.boundState acceptor fileSystem).closed closed
  rw [made.closed closed] at registered ⊢
  refine owned.fewer registered ?_ ?_ ?_
  · intro key owner held
    exact (owner_of_erased held).2
  · intro place creator there
    obtain ⟨there, kept⟩ := Resolver.lookup_remove.mp there
    rw [FileSystem.lookup_create made.created, if_neg] at there
    · exact there
    · rintro rfl
      exact kept made.removed
  · intro place owner held there
    refine Resolver.lookup_remove.mpr ?_
    have different : place ≠ location := by
      rintro rfl
      rw [FileSystem.vacant_of_create made.created] at there
      cases there
    rw [FileSystem.lookup_create made.created, if_neg different, made.removed]
    exact ⟨there, fun same => different (Option.some.inj same).symm⟩

end Made

/-! ## Runs -/

theorem Owned.bind {outcome : BindOutcome} {result : State × List Event}
    (owned : Owned process state) (alike : NamedAlike process state (.bind server outcome))
    (bound : Bound process server state outcome result) :
    Owned process result.1 ∧ ∀ by' location creator,
      .removed by' location creator ∈ result.2 → creator = by' := by
  have removed : Owned process
      (Runtime.removeSocketFilePath process (process.socketFilePath server) state) :=
    owned.removeSocketFilePath _
  have own {before : State} {result : State × List Event} (owned : Owned process before)
      (closed : Closed process server before result) (by' : Nat) (location : Location String)
      (creator : Nat) (member : .removed by' location creator ∈ result.2) : creator = by' := by
    obtain ⟨_, same⟩ := owned.closed_removes closed member
    cases same
    rfl
  cases bound with
  | already acceptor => exact ⟨owned, by simp⟩
  | endpointFailed acceptor closed => exact ⟨owned.closed closed, own owned closed⟩
  | failed _ acceptor _ closed => exact ⟨removed.closed closed, own removed closed⟩
  | listenFailed acceptor made closed =>
      refine ⟨removed.unmade acceptor made closed, ?_⟩
      rw [made.closed closed]
      simp_all
  | succeeded acceptor made =>
      refine ⟨removed.made acceptor made ?_, by simp⟩
      rintro name rfl
      rcases alike acceptor name (nameInCurrentDirectory_of_vacant made.vacant) with short | free
      · exact .inl short
      · right
        cases held : (Runtime.removeSocketFilePath process (process.socketFilePath server)
            state).socketFilePathOwners (.bare name) with
        | none => rfl
        | some owner =>
            rw [(owner_of_erased held).2] at free
            cases free

theorem Owned.step {label : Label} {result : State × List Event}
    (owned : Owned process state) (alike : NamedAlike process state label)
    (stepped : Stepped process state label result) :
    Owned process result.1 ∧ ∀ by' location creator,
      .removed by' location creator ∈ result.2 → creator = by' := by
  cases stepped with
  | bind bound => exact owned.bind alike bound
  | closeAcceptor closed =>
      refine ⟨owned.closed closed, ?_⟩
      intro by' location creator member
      obtain ⟨_, same⟩ := owned.closed_removes closed member
      cases same
      rfl
  | relink location target =>
      refine ⟨owned.fewer ⟨owned.idle, owned.bound⟩ (fun _ _ held => held) ?_ ?_, by simp⟩
      · intro place creator there
        exact FileSystem.lookup_relink.mp there
      · intro place owner _ there
        exact FileSystem.lookup_relink.mpr there

theorem run_owned {fileSystem : FileSystem String File} {log : List Event}
    (run : Run (system process) (NamedAlike process) (State.start fileSystem) log state) :
    Owned process state := by
  induction run with
  | refl => exact start_owned fileSystem
  | next _ alike step ih => exact (ih.step alike (step_stepped step)).1

/-- A server removes no socket file that another one has made. -/
theorem removes_own_socket_file {fileSystem : FileSystem String File} {log : List Event}
    (run : Run (system process) (NamedAlike process) (State.start fileSystem) log state)
    {location : Location String} {creator : Nat}
    (removed : .removed server location creator ∈ log) : creator = server := by
  induction run with
  | refl => cases removed
  | next run alike step ih =>
      rcases List.mem_append.mp removed with before | now
      · exact ih before
      · exact ((run_owned run).step alike (step_stepped step)).2 _ _ _ now

/-- Two directories and a link that leads to one of them or the other. -/
def linkedDirectories : FileSystem String File where
  entries :=
    [(["old"], .directory), (["new"], .directory), (["link"], .symlink (.ofLocation ["old"]))]
  rooted := by simp [entryAt]

theorem linkedDirectories_fresh : Fresh linkedDirectories := by
  intro location creator there
  cases location with
  | nil => cases there
  | cons name above =>
      obtain ⟨found, search, same⟩ := Option.map_eq_some_iff.mp there
      have member := List.mem_of_find?_eq_some search
      simp only [linkedDirectories, List.mem_cons, List.not_mem_nil, or_false] at member
      rcases member with rfl | rfl | rfl <;> cases same

/-- Two servers bind the same path before and after the link in it is retargeted. -/
theorem removes_own_socket_file_after_retarget :
    ∃ process log state, Run (system process) (NamedAlike process) (State.start linkedDirectories)
        log state ∧
      log = [.bound 0 ["sock", "old"], .bound 1 ["sock", "new"], .removed 0 ["sock", "old"] 0,
        .removed 1 ["sock", "new"] 1] ∧
      ∀ server location creator, Event.removed server location creator ∈ log →
        creator = server := by
  let process : Process := ⟨⟨40, ["old"]⟩, fun _ => .ofLocation ["sock", "link"]⟩
  have computed : (Run.steps? (system process) (NamedAlike process)
      (State.start linkedDirectories)
      [.bind 0 .succeeded, .relink ["link"] (some (.ofLocation ["new"])), .bind 1 .succeeded,
        .closeAcceptor 0, .closeAcceptor 1]).map (·.2) =
      some [.bound 0 ["sock", "old"], .bound 1 ["sock", "new"], .removed 0 ["sock", "old"] 0,
        .removed 1 ["sock", "new"] 1] := by
    decide
  obtain ⟨⟨state, log⟩, ran, rfl⟩ := Option.map_eq_some_iff.mp computed
  exact ⟨process, _, state, Run.of_steps? ran, rfl, fun server location creator removed =>
    removes_own_socket_file (Run.of_steps? ran) removed⟩

/-- A path that is a single name is kept relative, so a server that binds the same file
under its full path does not take the key away. -/
theorem removes_another_servers_socket_file :
    ¬ ∀ (process : Process) (fileSystem : FileSystem String File) (log : List Event)
        (state : State) (server creator : Nat) (location : Location String),
      Fresh fileSystem →
      Run (system process) (fun _ _ => True) (State.start fileSystem) log state →
      Event.removed server location creator ∈ log → creator = server := by
  let process : Process :=
    ⟨⟨40, ["old"]⟩, fun server => if server = 0 then .bare "sock" else .ofLocation ["sock", "old"]⟩
  have computed : (Run.steps? (system process) (fun _ _ => True)
      (State.start linkedDirectories)
      [.bind 0 .succeeded, .bind 1 .succeeded, .closeAcceptor 0]).map (·.2) =
      some [.bound 0 ["sock", "old"], .bound 1 ["sock", "old"], .removed 0 ["sock", "old"] 1] := by
    decide
  obtain ⟨⟨state, log⟩, ran, rfl⟩ := Option.map_eq_some_iff.mp computed
  intro claim
  have own := claim process linkedDirectories _ state 0 1 ["sock", "old"] ?_
    (Run.of_steps? ran) (by simp)
  · cases own
  · exact linkedDirectories_fresh

end UnixDomainStream.Runtime
