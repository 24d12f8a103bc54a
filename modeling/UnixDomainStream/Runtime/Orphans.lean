import UnixDomainStream.Runtime.Ownership

/-!
# No socket file is left behind

A bind erases the key of its path with links followed, and removes the path itself.
As long as the two concern one file whenever the key is held, every socket file stays
registered under its server's key, and goes when that server closes its acceptor.
-/

namespace UnixDomainStream.Runtime

open Library

variable {process : Process} {state : State} {server : Nat}

/-- A bind that erases the key of a file that is still there also removes this file. -/
def TakesFile (process : Process) (state : State) : Label → Prop
  | .bind server outcome =>
      (state.servers server).acceptor = false → outcome ≠ .endpointFailed →
        ∀ owner ∈ state.socketFilePathOwners (makeSocketFilePathKey process state.fileSystem
          (process.socketFilePath server)),
        ∀ location ∈ process.resolver.removed? state.fileSystem
          (makeSocketFilePathKey process state.fileSystem (process.socketFilePath server)),
        state.fileSystem.lookup location = some (.file (.socket owner)) →
          process.resolver.removed? state.fileSystem (process.socketFilePath server) =
            some location
  | _ => True

instance (process : Process) (state : State) (label : Label) :
    Decidable (TakesFile process state label) :=
  match label with
  | .bind _ _ => inferInstanceAs (Decidable (_ → _ → ∀ _ ∈ _, ∀ _ ∈ _, _ → _))
  | .closeAcceptor _ => .isTrue trivial
  | .relink _ _ => .isTrue trivial

/-- A socket file is there only while its server has the acceptor open, and the server
owns it under a key that leads to it. -/
structure Present (process : Process) (state : State) : Prop extends Registered state where
  kept : ∀ location creator,
    state.fileSystem.lookup location = some (.file (.socket creator)) →
      (state.servers creator).acceptor = true ∧
        ∃ key, state.socketFilePathOwners key = some creator ∧
          process.resolver.Spells location key

theorem start_present {fileSystem : FileSystem String File} (fresh : Fresh fileSystem) :
    Present process (State.start fileSystem) where
  toRegistered := start_registered fileSystem
  kept location creator there := absurd there (fresh location creator)

/-- A server without an acceptor has no socket file. -/
theorem Present.absent (present : Present process state)
    (acceptor : (state.servers server).acceptor = false) (location : Location String) :
    state.fileSystem.lookup location ≠ some (.file (.socket server)) := by
  intro there
  rw [(present.kept location server there).1] at acceptor
  cases acceptor

/-- The key of a server leads to the file of the server. -/
theorem Present.removed (present : Present process state) {key : FilePath String}
    (owner : state.socketFilePathOwners key = some server) {location : Location String}
    (there : state.fileSystem.lookup location = some (.file (.socket server))) :
    process.resolver.removed? state.fileSystem key = some location := by
  obtain ⟨_, other, held, spells⟩ := present.kept location server there
  have same := present.bound other server held
  rw [present.bound key server owner] at same
  cases same
  exact Resolver.removed_of_spells spells there

theorem Present.removeSocketFilePath (present : Present process state) {outcome : BindOutcome}
    (takes : TakesFile process state (.bind server outcome))
    (acceptor : (state.servers server).acceptor = false) (endpoint : outcome ≠ .endpointFailed) :
    Present process (removeSocketFilePath process (process.socketFilePath server) state) where
  toRegistered := present.toRegistered.removeSocketFilePath _
  kept location creator there := by
    obtain ⟨there, left⟩ := Resolver.lookup_remove.mp there
    obtain ⟨opened, key, held, spells⟩ := present.kept location creator there
    refine ⟨opened, key, ?_, spells⟩
    have different : key ≠ makeSocketFilePathKey process state.fileSystem
        (process.socketFilePath server) := by
      rintro rfl
      exact left (takes acceptor endpoint creator held location (present.removed held there) there)
    simpa only [Runtime.removeSocketFilePath, Function.update_of_ne different] using held

theorem Present.closed {result : State × List Event} (present : Present process state)
    (closed : Closed process server state result) : Present process result.1 := by
  have registered := present.toRegistered.closed closed
  cases closed with
  | free disowned =>
      refine ⟨registered, ?_⟩
      intro location creator there
      obtain ⟨opened, key, held, spells⟩ := present.kept location creator there
      have different : creator ≠ server := by
        rintro rfl
        exact disowned key (present.bound key creator held) held
      exact ⟨by simpa [different] using opened, key, held, spells⟩
  | owned key bound owner =>
      refine ⟨registered, ?_⟩
      intro location creator remaining
      obtain ⟨there, left⟩ := Resolver.lookup_remove.mp remaining
      obtain ⟨opened, other, held, spells⟩ := present.kept location creator there
      have different : creator ≠ server := by
        intro same
        rw [same] at there
        exact left (present.removed owner there)
      have keys : other ≠ key := by
        rintro rfl
        rw [owner] at held
        exact different (Option.some.inj held).symm
      refine ⟨by simpa [different] using opened, other, ?_, spells⟩
      simpa [Function.update_of_ne keys] using held

/-- A close removes the socket file of the server, wherever it is. -/
theorem Present.closed_removes {result : State × List Event} (present : Present process state)
    (closed : Closed process server state result) {location : Location String}
    (there : state.fileSystem.lookup location = some (.file (.socket server))) :
    result.2 = [.removed server location server] := by
  obtain ⟨_, other, held, _⟩ := present.kept location server there
  cases closed with
  | free disowned => exact absurd held (disowned other (present.bound other server held))
  | owned key bound owner =>
      simp [removedSocket, present.removed owner there, there]

theorem Present.made {location : Location String} {fileSystem : FileSystem String File}
    (present : Present process state) (acceptor : (state.servers server).acceptor = false)
    (made : Made process server state location fileSystem) :
    Present process (boundState process server state fileSystem) where
  toRegistered := present.toRegistered.boundState acceptor fileSystem
  kept place creator there := by
    have new := spells_of_vacant made.vacant
    rw [boundState_fileSystem, FileSystem.lookup_create made.created] at there
    rw [boundState_owners]
    by_cases same : place = location
    · subst same
      rw [if_pos rfl] at there
      cases there
      exact ⟨by simp [boundState_server], _, Function.update_self .., new⟩
    · rw [if_neg same] at there
      obtain ⟨opened, key, held, spells⟩ := present.kept place creator there
      have different : creator ≠ server := by
        rintro rfl
        exact present.absent acceptor place there
      have keys : key ≠ makeSocketFilePathKey process state.fileSystem
          (process.socketFilePath server) := by
        rintro rfl
        exact same (Resolver.Spells.unique spells new)
      refine ⟨?_, key, by rwa [Function.update_of_ne keys], spells⟩
      simpa [boundState, setSocketFilePathOwner, different] using opened

theorem Present.step {label : Label} {result : State × List Event}
    (present : Present process state) (takes : TakesFile process state label)
    (stepped : Stepped process state label result) : Present process result.1 := by
  cases stepped with
  | bind bound =>
      cases bound with
      | already acceptor => exact present
      | endpointFailed acceptor closed => exact present.closed closed
      | failed _ acceptor endpoint closed =>
          exact (present.removeSocketFilePath takes acceptor endpoint).closed closed
      | listenFailed acceptor made closed =>
          have removed := present.removeSocketFilePath takes acceptor (by simp)
          exact (removed.made acceptor made).closed closed
      | succeeded acceptor made =>
          have removed := present.removeSocketFilePath takes acceptor (by simp)
          exact removed.made acceptor made
  | closeAcceptor closed => exact present.closed closed
  | relink location target =>
      refine ⟨⟨present.idle, present.bound⟩, ?_⟩
      intro place creator there
      exact present.kept place creator (FileSystem.lookup_relink.mp there)

theorem run_present {fileSystem : FileSystem String File} {log : List Event}
    (fresh : Fresh fileSystem)
    (run : Run (system process) (TakesFile process) (State.start fileSystem) log state) :
    Present process state := by
  induction run with
  | refl => exact start_present fresh
  | next _ takes step ih => exact ih.step takes (step_stepped step)

/-- The socket file of a server that closes its acceptor goes with it. -/
theorem leaves_no_socket_file {fileSystem : FileSystem String File} {log : List Event}
    (fresh : Fresh fileSystem)
    (run : Run (system process) (TakesFile process) (State.start fileSystem) log state)
    {state' : State} {events : List Event}
    (step : (system process).step? state (.closeAcceptor server) = some (state', events))
    {location : Location String}
    (there : state.fileSystem.lookup location = some (.file (.socket server))) :
    events = [.removed server location server] ∧
      ∀ place, state'.fileSystem.lookup place ≠ some (.file (.socket server)) := by
  have present := run_present fresh run
  have closed := closeAcceptor_closed process server state
  rw [Option.some.inj step] at closed
  refine ⟨present.closed_removes closed there, ?_⟩
  have acceptor : (state'.servers server).acceptor = false := by
    cases closed <;> simp
  exact (present.closed closed).absent acceptor

theorem leaves_no_socket_file_after_retarget :
    ∃ state state' events,
      Run (system ⟨⟨40, ["old"]⟩, fun _ => .ofLocation ["sock", "link"]⟩)
        (TakesFile ⟨⟨40, ["old"]⟩, fun _ => .ofLocation ["sock", "link"]⟩)
        (State.start linkedDirectories)
        [.bound 0 ["sock", "old"], .bound 1 ["sock", "new"]] state ∧
      (system ⟨⟨40, ["old"]⟩, fun _ => .ofLocation ["sock", "link"]⟩).step? state
        (.closeAcceptor 0) = some (state', events) ∧
      events = [.removed 0 ["sock", "old"] 0] ∧
      ∀ place, state'.fileSystem.lookup place ≠ some (.file (.socket 0)) := by
  let process : Process := ⟨⟨40, ["old"]⟩, fun _ => .ofLocation ["sock", "link"]⟩
  have computed : (Run.steps? (system process) (TakesFile process)
      (State.start linkedDirectories)
      [.bind 0 .succeeded, .relink ["link"] (some (.ofLocation ["new"])),
        .bind 1 .succeeded]).map
          (fun result => (result.1.fileSystem.lookup ["sock", "old"], result.2)) =
      some (some (.file (.socket 0)), [.bound 0 ["sock", "old"], .bound 1 ["sock", "new"]]) := by
    decide
  obtain ⟨⟨state, log⟩, ran, same⟩ := Option.map_eq_some_iff.mp computed
  obtain ⟨there, rfl⟩ := Prod.mk.inj same
  have run := Run.of_steps? ran
  exact ⟨state, _, _, run, rfl, leaves_no_socket_file linkedDirectories_fresh run rfl there⟩

/-- The key of a path whose last element is a link is the key of the file that the link
leads to, but the removal takes the link. -/
theorem leaves_a_socket_file :
    ¬ ∀ (process : Process) (fileSystem : FileSystem String File) (log : List Event)
        (state state' : State) (events : List Event) (server : Nat) (location : Location String),
      Fresh fileSystem →
      Run (system process) (fun _ _ => True) (State.start fileSystem) log state →
      (system process).step? state (.closeAcceptor server) = some (state', events) →
      state.fileSystem.lookup location = some (.file (.socket server)) →
      state'.fileSystem.lookup location ≠ some (.file (.socket server)) := by
  let process : Process :=
    ⟨⟨40, ["old"]⟩, fun server =>
      .ofLocation (if server = 0 then ["sock", "old"] else ["sock", "new"])⟩
  have computed : (Run.steps? (system process) (fun _ _ => True)
      (State.start linkedDirectories)
      [.bind 0 .succeeded, .relink ["sock", "new"] (some (.ofLocation ["sock", "old"])),
        .bind 1 .succeeded]).map (fun result => (result.1.fileSystem.lookup ["sock", "old"],
          (closeAcceptor process 0 result.1).1.fileSystem.lookup ["sock", "old"])) =
      some (some (.file (.socket 0)), some (.file (.socket 0))) := by
    decide
  obtain ⟨⟨state, log⟩, ran, same⟩ := Option.map_eq_some_iff.mp computed
  obtain ⟨there, left⟩ := Prod.mk.inj same
  intro claim
  exact claim process linkedDirectories log state _ _ 0 ["sock", "old"] linkedDirectories_fresh
    (Run.of_steps? ran) rfl there left

end UnixDomainStream.Runtime
