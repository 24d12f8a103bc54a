import UnixDomainStream.Delivery
import UnixDomainStream.Server.Notifications

/-!
# The messages of a verified peer

A message passes two jobs on its way out: the slot of the peer's signal, and the
notification that the slot enqueues.  Both wait in the one queue of the dispatcher, so
what a peer owes the outside is first what is about to be passed on, then what its slots
have not seen yet.  Nothing of it is lost while nobody closes the peer from this side.
-/

namespace UnixDomainStream.Server

open Library

/-! ## What is decoded and what is told -/

/-- The message that the next handler decodes, if the socket of its peer is open. -/
def decodings (options : CommonOptions) (state : State) : Label → List (Nat × Message)
  | .handler _ =>
      match state.handlers with
      | .peer (.accepted id) handler :: _ =>
          match state.io.connections (.accepted id) with
          | some connection =>
              if connection.peer.isOpen then
                (connection.peer.decoded? options handler).toList.map fun message => (id, message)
              else []
          | none => []
      | _ => []
  | _ => []

/-- The server, with the messages that its readers decode. -/
def readingSystem (options : CommonOptions) : System State Label (Event ⊕ (Nat × Message)) :=
  (system options).annotating (decodings options)

/-- The messages decoded for one peer before its socket was closed. -/
def decodedOf (id : Nat) (notes : List (Nat × Message)) : List Message :=
  notes.filterMap fun note => if note.1 = id then some note.2 else none

def Event.told? (id : Nat) : Event → Option Told
  | .peerConnected owner _ => if owner = id then some .connected else none
  | .received owner buffer => if owner = id then some (.message (.received buffer)) else none
  | .requestReceived owner requestId buffer =>
      if owner = id then some (.message (.requestReceived requestId buffer)) else none
  | .peerErrorOccurred owner _ => if owner = id then some .error else none
  | .peerClosed owner => if owner = id then some .closed else none
  | _ => none

/-- What the outside was told about one peer. -/
def toldOf (id : Nat) (events : List Event) : List Told := events.filterMap (Event.told? id)

theorem told?_of_unmarked {id : Nat} {event : Event} (unmarked : event.mark? id = none) :
    event.told? id = none := by
  cases event with
  | verifyPeer => rfl
  | accepted => rfl
  | peerConnected owner credentials => simpa [Event.mark?, Event.told?] using unmarked
  | peerClosed owner => simpa [Event.mark?, Event.told?] using unmarked
  | peerErrorOccurred owner errorCode => simpa [Event.mark?, Event.told?] using unmarked
  | received owner buffer => simpa [Event.mark?, Event.told?] using unmarked
  | requestReceived owner requestId buffer => simpa [Event.mark?, Event.told?] using unmarked
  | _ => rfl

theorem toldOf_eq_nil {id : Nat} {events : List Event} (unmarked : marks id events = []) :
    toldOf id events = [] :=
  List.filterMap_eq_nil_iff.mpr fun event member =>
    told?_of_unmarked (List.filterMap_eq_nil_iff.mp unmarked event member)

/-! ## What is owed -/

/-- What a job is about to tell the outside. -/
def Job.passes? (id : Nat) : Job → Option Item
  | .notify _ (.ready owner _) => if owner = id then some .ready else none
  | .received owner buffer => if owner = id then some (.message (.received buffer)) else none
  | .requestReceived owner requestId buffer =>
      if owner = id then some (.message (.requestReceived requestId buffer)) else none
  | .peerClosed owner => if owner = id then some .closed else none
  | _ => none

/-- The second effect of the slot for `closed`. -/
def Job.relays? (id : Nat) : Job → Option Item
  | .enqueuePeerClosed owner => if owner = id then some .closed else none
  | _ => none

/-- What a signal brings to its slot. -/
def Job.brings? (id : Nat) : Job → Option Item
  | .signal (.accepted owner _ _) sent => if owner = id then sent.item? else none
  | _ => none

/-- What the queue owes the outside, in the order in which it will be told. -/
def owed (id : Nat) (jobs : List Job) : List Item :=
  jobs.filterMap (Job.passes? id) ++
    (jobs.filterMap (Job.relays? id) ++ jobs.filterMap (Job.brings? id))

/-- A job that is no work for the peer owes nothing. -/
theorem Job.owes_nothing {id : Nat} {job : Job} (idle : job.stage? id = none) :
    job.passes? id = none ∧ job.relays? id = none ∧ job.brings? id = none := by
  cases job with
  | signal slots sent =>
      cases slots with
      | healthCheck => exact ⟨rfl, rfl, rfl⟩
      | accepted owner credentials token =>
          have different : owner ≠ id := by simpa [stage?] using idle
          simp [passes?, relays?, brings?, different]
  | notify token notice =>
      cases notice with
      | ready owner credentials => simpa [stage?, passes?, relays?, brings?] using idle
      | _ => exact ⟨rfl, rfl, rfl⟩
  | enqueuePeerClosed owner => simpa [stage?, passes?, relays?, brings?] using idle
  | received owner buffer => simpa [stage?, passes?, relays?, brings?] using idle
  | requestReceived owner requestId buffer =>
      simpa [stage?, passes?, relays?, brings?] using idle
  | peerClosed owner => simpa [stage?, passes?, relays?, brings?] using idle
  | _ => exact ⟨rfl, rfl, rfl⟩

theorem owed_eq_nil {id : Nat} {jobs : List Job} (idle : ∀ job ∈ jobs, job.stage? id = none) :
    owed id jobs = [] := by
  have passes : jobs.filterMap (Job.passes? id) = [] :=
    List.filterMap_eq_nil_iff.mpr fun job member => (Job.owes_nothing (idle job member)).1
  have relays : jobs.filterMap (Job.relays? id) = [] :=
    List.filterMap_eq_nil_iff.mpr fun job member => (Job.owes_nothing (idle job member)).2.1
  have brings : jobs.filterMap (Job.brings? id) = [] :=
    List.filterMap_eq_nil_iff.mpr fun job member => (Job.owes_nothing (idle job member)).2.2
  rw [owed, passes, relays, brings]
  rfl

/-- The token that a job for the peer has captured. -/
def Job.token? (id : Nat) : Job → Option Nat
  | .signal (.accepted owner _ token) _ => if owner = id then some token else none
  | .notify token (.ready owner _) => if owner = id then some token else none
  | _ => none

theorem Job.token?_of_unstaged {id : Nat} {job : Job} (idle : job.stage? id = none) :
    job.token? id = none := by
  cases job with
  | signal slots sent =>
      cases slots with
      | healthCheck => rfl
      | accepted owner credentials token => simpa [stage?, token?] using idle
  | notify token notice =>
      cases notice with
      | ready owner credentials => simpa [stage?, token?] using idle
      | _ => rfl
  | _ => rfl

def Slots.token : Slots → Nat
  | .accepted _ _ token => token
  | .healthCheck probe => probe.token

/-! ## Handlers -/

/-- The handler closes the peer, for whatever reason. -/
def Handler.closes (id : Nat) : Handler → Bool
  | .peer (.accepted owner) (.close _) => owner == id
  | _ => false

namespace Turn

/-- A piece of a handler that leaves the peer object alone; the peer stays listed unless the
piece erases it or posts its close. -/
structure Spares (id : Nat) (erases : Prop) (before after : Turn) : Prop where
  born : id ≤ after.io.nextPeerId ↔ id ≤ before.io.nextPeerId
  connection : after.io.connections (.accepted id) = before.io.connections (.accepted id)
  held : id ∈ before.io.peers → id ∈ after.io.peers ∨ erases ∨
    after.posts.any (Handler.closes id) = true
  posts : Appends (fun handler => handler.erases id = false) before.posts after.posts
  jobs : Appends (fun job => job.stage? id = none) before.jobs after.jobs
  events : Appends (fun event => event.mark? id = none) before.events after.events

variable {id : Nat} {erases : Prop} {before after turn : Turn}

theorem Tame.spares (tame : Tame id before after) (erases : Prop) :
    Spares id erases before after where
  born := tame.born
  connection := tame.connection
  held listed := .inl (tame.listed.mpr listed)
  posts := tame.posts.mono fun handler plain => by
    simp only [Handler.plain, Bool.and_eq_true, Bool.not_eq_true'] at plain
    exact plain.1.2
  jobs := tame.jobs.mono fun job plain => by
    simp only [Job.plain, Bool.and_eq_true, Option.isNone_iff_eq_none] at plain
    exact plain.1
  events := tame.events

theorem Spares.trans {first second third : Turn} (left : Spares id erases first second)
    (right : Spares id erases second third) : Spares id erases first third where
  born := right.born.trans left.born
  connection := right.connection.trans left.connection
  held listed := by
    rcases left.held listed with listed | erased | closing
    · exact right.held listed
    · exact .inr (.inl erased)
    · obtain ⟨more, posts, _⟩ := right.posts
      exact .inr (.inr (by rw [posts, List.any_append, closing, Bool.true_or]))
  posts := left.posts.trans right.posts
  jobs := left.jobs.trans right.jobs
  events := left.events.trans right.events

/-- The handler accepts the connection that becomes the given peer. -/
def Accepts (scope : NotificationScope) (id : Nat) (turn : Turn) : Handler → Prop
  | .accept accept (.socket _) => scope.isCurrent accept.token = true ∧ turn.io.nextPeerId + 1 = id
  | _ => False

theorem PeerPiece.spares {options : CommonOptions} {scope : NotificationScope}
    {handler : Handler} {start : Turn}
    (piece : PeerPiece options scope handler start before after)
    (own : handler.isOf (.accepted id) = false) (fresh : ¬ Accepts scope id start handler)
    (concerned : handler.concerns start.io id = true) :
    Spares id (handler.erases id = true) before after := by
  cases piece with
  | complete completes earned => exact (request_tame completes id).spares _
  | push other frame => exact (post_tame rfl rfl _).spares _
  | @release other _ closes listed completed =>
      have same : other = id := by
        cases closes with
        | closePeer => exact of_decide_eq_true concerned
        | requestTimer aimed => simpa [Handler.concerns, aimed] using concerned
      subst same
      refine ⟨.rfl, rfl, fun _ => ?_, .single ?_ _, .refl _, .refl _⟩
      · simp [erasePeer, Turn.post, Handler.closes]
      · rfl
  | erase closed completed =>
      subst closed
      exact ⟨.rfl, rfl, fun _ => .inr (.inl concerned), .refl _, .refl _, .refl _⟩
  | dismiss stopped completed =>
      refine ⟨.rfl, rfl, fun listed => ?_, .map ?_ _, .refl _, .refl _⟩
      · simp only [List.any_append, List.any_map, Bool.or_eq_true]
        exact .inr (.inr (.inr (List.any_eq_true.mpr ⟨id, listed, by simp [Handler.closes]⟩)))
      · exact fun _ _ => rfl
  | send sent listed =>
      refine ⟨.rfl, rfl, .inl, .single ?_ _, .refl _, .single ?_ _⟩
      · rfl
      · rfl
  | refuse sent => exact (enqueue_tame rfl _).spares _
  | speak spoke =>
      subst spoke
      exact absurd concerned (by simpa [Handler.concerns, Handler.isOf] using own)
  | create accepted current =>
      subst accepted
      exact absurd ⟨current, of_decide_eq_true concerned⟩ fresh

/-- A handler of the server leaves a peer object alone unless it is the peer's own. -/
theorem run_spares (options : CommonOptions) {scope : NotificationScope}
    (outcome : BindOutcome) {handler : Handler} (own : handler.isOf (.accepted id) = false)
    (fresh : ¬ Accepts scope id turn handler) :
    Spares id (handler.erases id = true) turn (turn.run options scope outcome handler) := by
  refine (run_pieces options scope outcome handler turn).effect
    (fun turn => (Tame.refl id turn).spares _) .trans ?_
  intro before after piece
  rcases piece.sort with internal | piece
  · exact (internal.tame id).spares _
  · cases concerned : handler.concerns turn.io id with
    | true => exact piece.spares own fresh concerned
    | false => exact (piece.tame concerned).spares _

end Turn

/-! ## The account of one peer -/

/-- The jobs that are work for a peer. -/
def work (id : Nat) (jobs : List Job) : List Job := jobs.filter fun job => (job.stage? id).isSome

@[simp]
theorem work_append (id : Nat) (first second : List Job) :
    work id (first ++ second) = work id first ++ work id second :=
  List.filter_append ..

theorem work_eq_nil {id : Nat} {jobs : List Job} (idle : ∀ job ∈ jobs, job.stage? id = none) :
    work id jobs = [] :=
  List.filter_eq_nil_iff.mpr fun job member => by simp [idle job member]

theorem mem_work {id : Nat} {jobs : List Job} {job : Job} :
    job ∈ work id jobs ↔ job ∈ jobs ∧ (job.stage? id).isSome = true := List.mem_filter

/-- A view that drops all other jobs sees the work only. -/
theorem filterMap_work {α : Type} {id : Nat} {view : Job → Option α}
    (hidden : ∀ job : Job, job.stage? id = none → view job = none) (jobs : List Job) :
    (work id jobs).filterMap view = jobs.filterMap view := by
  rw [work, List.filterMap_filter]
  congr 1
  funext job
  cases idle : job.stage? id with
  | none => simp [hidden job idle]
  | some stage => rfl

theorem owed_work (id : Nat) (jobs : List Job) : owed id (work id jobs) = owed id jobs := by
  rw [owed, owed, filterMap_work (fun _ idle => (Job.owes_nothing idle).1),
    filterMap_work (fun _ idle => (Job.owes_nothing idle).2.1),
    filterMap_work (fun _ idle => (Job.owes_nothing idle).2.2)]

namespace State

variable (id : Nat) (state : State)

def passage : Passage where
  isOpen := (state.io.connections (.accepted id)).any fun connection => connection.peer.isOpen
  ready := (state.io.connections (.accepted id)).all fun connection => connection.peer.ready
  exposed := decide (id ∈ state.dispatcher.exposedPeerIds)
  owed := owed id state.jobs

/-- The socket is closed, and the slot for `closed` has run. -/
def Past : Prop :=
  (state.passage id).isOpen = false ∧ .closed ∉ state.jobs.filterMap (Job.brings? id)

end State

/-- The account of a peer that nobody closes from this side. -/
structure Served (id : Nat) (state : State) (decoded : List Message) (told : List Told) :
    Prop where
  delivery : Delivery (state.passage id) decoded told
  slots : ∀ connection, state.io.connections (.accepted id) = some connection →
    state.dispatcher.notificationScope.isCurrent connection.slots.token = true
  tokens : ∀ job ∈ state.jobs, ∀ token ∈ job.token? id,
    state.dispatcher.notificationScope.isCurrent token = true
  relays : ∀ job ∈ state.jobs.tail, job.relays? id = none
  once : (state.jobs.filterMap (Job.brings? id)).count .closed +
    (state.passage id).isOpen.toNat ≤ 1
  held : id ∈ state.io.peers ∨ state.handlers.any (Handler.closes id) = true ∨ state.Past id
  erasing : state.handlers.any (Handler.erases id) = true → state.Past id

/-- A step that is no business of the peer. -/
structure Untouched (id : Nat) (before after : State) : Prop where
  isOpen : (after.passage id).isOpen = (before.passage id).isOpen
  ready : (after.passage id).ready = (before.passage id).ready
  slots : ∀ connection, after.io.connections (.accepted id) = some connection →
    ∃ earlier, before.io.connections (.accepted id) = some earlier ∧
      connection.slots = earlier.slots
  exposed : id ∈ after.dispatcher.exposedPeerIds ↔ id ∈ before.dispatcher.exposedPeerIds
  scope : ∀ token, before.dispatcher.notificationScope.isCurrent token = true →
    after.dispatcher.notificationScope.isCurrent token = true
  work : work id after.jobs = work id before.jobs
  relays : (∀ job ∈ before.jobs.tail, job.relays? id = none) →
    ∀ job ∈ after.jobs.tail, job.relays? id = none
  held : id ∈ before.io.peers → id ∈ after.io.peers ∨
    before.handlers.any (Handler.erases id) = true ∨
    after.handlers.any (Handler.closes id) = true
  erasing : after.handlers.any (Handler.erases id) = true →
    before.handlers.any (Handler.erases id) = true

variable {id : Nat} {state state' : State} {decoded : List Message} {told : List Told}

namespace Untouched

theorem view {α : Type} (untouched : Untouched id state state') {view : Job → Option α}
    (hidden : ∀ job : Job, job.stage? id = none → view job = none) :
    state'.jobs.filterMap view = state.jobs.filterMap view := by
  rw [← filterMap_work hidden, untouched.work, filterMap_work hidden]

theorem passage (untouched : Untouched id state state') : state'.passage id = state.passage id := by
  have owes : owed id state'.jobs = owed id state.jobs := by
    rw [← owed_work, untouched.work, owed_work]
  have exposed : (state'.passage id).exposed = (state.passage id).exposed :=
    decide_eq_decide.mpr untouched.exposed
  have isOpen := untouched.isOpen
  have ready := untouched.ready
  simp only [State.passage] at isOpen ready exposed ⊢
  rw [isOpen, ready, exposed, owes]

theorem past (untouched : Untouched id state state') (past : state.Past id) : state'.Past id := by
  rw [State.Past, untouched.passage, untouched.view fun _ idle => (Job.owes_nothing idle).2.2]
  exact past

theorem served (untouched : Untouched id state state') (served : Served id state decoded told)
    (unclosed : state.handlers.any (Handler.closes id) = false) :
    Served id state' decoded told where
  delivery := served.delivery.congr untouched.passage
  slots connection alive := by
    obtain ⟨earlier, before, same⟩ := untouched.slots connection alive
    rw [same]
    exact untouched.scope _ (served.slots earlier before)
  tokens job member token captured := by
    have staged : (job.stage? id).isSome = true := by
      by_contra idle
      rw [Job.token?_of_unstaged (by simpa using idle)] at captured
      cases captured
    have queued : job ∈ Server.work id state.jobs :=
      untouched.work ▸ mem_work.mpr ⟨member, staged⟩
    exact untouched.scope _ (served.tokens job (mem_work.mp queued).1 token captured)
  relays := untouched.relays served.relays
  once := by
    rw [untouched.view fun _ idle => (Job.owes_nothing idle).2.2, untouched.passage]
    exact served.once
  held := by
    rcases served.held with listed | closing | past
    · rcases untouched.held listed with listed | erasing | closing
      · exact .inl listed
      · exact .inr (.inr (untouched.past (served.erasing erasing)))
      · exact .inr (.inl closing)
    · rw [unclosed] at closing
      cases closing
    · exact .inr (.inr (untouched.past past))
  erasing erasing := untouched.past (served.erasing (untouched.erasing erasing))

end Untouched

/-! ### Handlers -/

section

variable {options : CommonOptions} {handler : Handler} {rest : List Handler}

/-- The state after the handler at the head of the queue. -/
def State.afterHandler (options : CommonOptions) (state : State) (rest : List Handler)
    (handler : Handler) (outcome : BindOutcome) : State :=
  let turn := Turn.run options state.dispatcher.notificationScope outcome handler
    { io := state.io }
  { state with io := turn.io, handlers := rest ++ turn.posts, jobs := state.jobs ++ turn.jobs }

theorem any_of_cons (queued : state.handlers = handler :: rest) {test : Handler → Bool} :
    state.handlers.any test = (test handler || rest.any test) := by
  rw [queued, List.any_cons]

/-- Further jobs that are no work for the peer. -/
theorem tail_append {jobs more : List Job} (idle : ∀ job ∈ more, job.stage? id = none)
    (relays : ∀ job ∈ jobs.tail, job.relays? id = none) :
    ∀ job ∈ (jobs ++ more).tail, job.relays? id = none := by
  cases jobs with
  | nil => exact fun job member =>
      (Job.owes_nothing (idle job (List.mem_of_mem_tail member))).2.1
  | cons first jobs =>
      exact fun job member => (List.mem_append.mp member).elim (relays job) fun new =>
        (Job.owes_nothing (idle job new)).2.1

theorem handled_untouched (queued : state.handlers = handler :: rest) (outcome : BindOutcome)
    (spares : Turn.Spares id (handler.erases id = true) { io := state.io }
      (Turn.run options state.dispatcher.notificationScope outcome handler { io := state.io })) :
    Untouched id state (state.afterHandler options rest handler outcome) := by
  obtain ⟨more, jobs, idle⟩ := spares.jobs
  rw [List.nil_append] at jobs
  have connection := spares.connection
  refine ⟨?_, ?_, fun later alive => ⟨later, connection ▸ alive, rfl⟩, .rfl, fun _ now => now,
    ?_, fun relays => ?_, fun listed => ?_, fun erasing => ?_⟩
  · simp only [State.passage, State.afterHandler, connection]
  · simp only [State.passage, State.afterHandler, connection]
  · simp only [State.afterHandler, jobs, work_append, work_eq_nil idle, List.append_nil]
  · simp only [State.afterHandler, jobs]
    exact tail_append idle relays
  · rw [any_of_cons queued]
    simp only [State.afterHandler, List.any_append, Bool.or_eq_true]
    rcases spares.held listed with listed | erases | closing
    · exact .inl listed
    · exact .inr (.inl (.inl erases))
    · exact .inr (.inr (.inr closing))
  · have unposted := spares.posts.any_eq fun handler harmless => harmless
    simp only [State.afterHandler, List.any_append, unposted, List.any_nil, Bool.or_false] at erasing
    rw [any_of_cons queued, erasing, Bool.or_true]

/-- The items that a handler's signals bring to the slots. -/
theorem brings_signals (id : Nat) (credentials : PeerCredentials) (token : Nat)
    (signals : List Signal) :
    (signals.map (Job.signal (.accepted id credentials token))).filterMap (Job.brings? id) =
      signals.filterMap Signal.item? := by
  rw [List.filterMap_map]
  congr 1
  funext sent
  simp [Job.brings?]

theorem owed_signals (id : Nat) (credentials : PeerCredentials) (token : Nat)
    (jobs : List Job) (signals : List Signal) :
    owed id (jobs ++ signals.map (Job.signal (.accepted id credentials token))) =
      owed id jobs ++ signals.filterMap Signal.item? := by
  have passes : (signals.map (Job.signal (.accepted id credentials token))).filterMap
      (Job.passes? id) = [] := by
    simp [List.filterMap_map, Function.comp_def, Job.passes?]
  have relays : (signals.map (Job.signal (.accepted id credentials token))).filterMap
      (Job.relays? id) = [] := by
    simp [List.filterMap_map, Function.comp_def, Job.relays?]
  simp only [owed, List.filterMap_append, passes, relays, brings_signals, List.append_nil,
    List.append_assoc]

/-- The signals of a handler contain `closed` once, if it closes the socket. -/
theorem count_closed {peer : Peer} {peerHandler : PeerHandler} {result : PeerTurn}
    (items : result.signals.filterMap Signal.item? =
      (if !peer.ready && result.peer.ready then [.ready] else []) ++
        (peer.decoded? options peerHandler).toList.map .message ++
        if peer.isOpen && !result.peer.isOpen then [.closed] else []) :
    (result.signals.filterMap Signal.item?).count .closed =
      (peer.isOpen && !result.peer.isOpen).toNat := by
  have messages : ∀ message : Option Message,
      (message.toList.map Item.message).count .closed = 0 := by
    intro message
    cases message <;> rfl
  have announced : ∀ raises : Bool, (if raises then [Item.ready] else []).count .closed = 0 := by
    intro raises
    cases raises <;> rfl
  rw [items, List.count_append, List.count_append, messages, announced]
  cases peer.isOpen && !result.peer.isOpen <;> rfl

/-- A handler of the peer object reports what it has decoded. -/
theorem Served.reports {after : State} {connection : Connection (.accepted id)}
    {credentials : PeerCredentials} {token : Nat} {peerHandler : PeerHandler}
    {result : PeerTurn} (served : Served id state decoded told)
    (unclosed : state.handlers.any (Handler.closes id) = false)
    (alive : state.io.connections (.accepted id) = some connection)
    (captured : connection.slots = .accepted id credentials token)
    (same : PeerTurn.run options peerHandler { peer := connection.peer } = result)
    (connected : after.io.connections (.accepted id) =
      some { connection with peer := result.peer })
    (dispatcher : after.dispatcher = state.dispatcher)
    (jobs : after.jobs = state.jobs ++
      result.signals.map (.signal (.accepted id credentials token)))
    (peers : after.io.peers = state.io.peers)
    (erasing : after.handlers.any (Handler.erases id) = true →
      state.handlers.any (Handler.erases id) = true) :
    Served id after (decoded ++ if connection.peer.isOpen then
      (connection.peer.decoded? options peerHandler).toList else []) told := by
  have shape := PeerTurn.run_shape options peerHandler connection.peer
  have items := PeerTurn.run_items options peerHandler connection.peer
  have raised : ∀ {message}, connection.peer.decoded? options peerHandler = some message →
      (PeerTurn.run options peerHandler { peer := connection.peer }).peer.ready = true :=
    PeerTurn.ready_of_decoded
  rw [same] at shape items raised
  have brought := count_closed items
  have isOpen : (state.passage id).isOpen = connection.peer.isOpen := by
    simp [State.passage, alive]
  have isOpen' : (after.passage id).isOpen = result.peer.isOpen := by
    simp [State.passage, connected]
  have ready : (state.passage id).ready = connection.peer.ready := by
    simp [State.passage, alive]
  have ready' : (after.passage id).ready = result.peer.ready := by
    simp [State.passage, connected]
  have brings : after.jobs.filterMap (Job.brings? id) =
      state.jobs.filterMap (Job.brings? id) ++ result.signals.filterMap Signal.item? := by
    rw [jobs, List.filterMap_append, brings_signals]
  have past : state.Past id → after.Past id := by
    rintro ⟨closed, reported⟩
    rw [isOpen] at closed
    have shut : result.peer.isOpen = false := by
      by_contra still
      rw [shape.isOpen (by simpa using still)] at closed
      cases closed
    have silent : .closed ∉ result.signals.filterMap Signal.item? := by
      rw [← List.count_eq_zero, brought, closed]
      rfl
    rw [State.Past, isOpen', brings, List.mem_append]
    exact ⟨shut, fun member => member.elim reported silent⟩
  refine ⟨?_, ?_, ?_, ?_, ?_, ?_, fun erases => past (served.erasing (erasing erases))⟩
  · rw [← isOpen]
    refine served.delivery.report ?_ ?_ ?_ ?_ ?_
    · rw [isOpen, isOpen']
      exact shape.isOpen
    · intro before
      rw [ready', shape.ready, ← ready, before, Bool.true_or]
    · intro some
      obtain ⟨message, decodes⟩ := Option.isSome_iff_exists.mp some
      rw [ready']
      exact raised decodes
    · simp only [State.passage, dispatcher]
    · rw [isOpen, isOpen', ready, ready']
      simp only [State.passage, jobs, owed_signals, items, List.append_assoc]
  · intro later now
    rw [connected, Option.some.injEq] at now
    rw [← now, dispatcher]
    exact served.slots connection alive
  · intro job member token' own
    rw [dispatcher]
    rw [jobs] at member
    rcases List.mem_append.mp member with old | new
    · exact served.tokens job old token' own
    · obtain ⟨sent, _, rfl⟩ := List.mem_map.mp new
      have same : token = token' := by simpa [Job.token?] using own
      have current := served.slots connection alive
      rw [captured] at current
      exact same ▸ current
  · have signals : ∀ job ∈ result.signals.map (Job.signal (.accepted id credentials token)),
        job.relays? id = none := by
      intro job member
      obtain ⟨sent, _, rfl⟩ := List.mem_map.mp member
      rfl
    have relays := served.relays
    rw [jobs]
    cases queued : state.jobs with
    | nil => exact fun job member => signals job (List.mem_of_mem_tail member)
    | cons first others =>
        rw [queued] at relays
        exact fun job member => (List.mem_append.mp member).elim (relays job) (signals job)
  · have once := served.once
    have splits : ∀ before after : Bool, (after = true → before = true) →
        (before && !after).toNat + after.toNat = before.toNat := by decide
    rw [isOpen, ← splits _ _ shape.isOpen] at once
    rw [brings, List.count_append, brought, isOpen']
    omega
  · rcases served.held with listed | closing | before
    · exact .inl (peers ▸ listed)
    · rw [unclosed] at closing
      cases closing
    · exact .inr (.inr (past before))

/-- The peer's own handler. -/
theorem peer_served {peerHandler : PeerHandler} (served : Served id state decoded told)
    (queued : state.handlers = .peer (.accepted id) peerHandler :: rest)
    (outcome : BindOutcome) (unclosed : state.handlers.any (Handler.closes id) = false) :
    Served id (state.afterHandler options rest (.peer (.accepted id) peerHandler) outcome)
      (decoded ++ decodedOf id (decodings options state (.handler outcome))) told := by
  have open' : peerHandler ≠ .close true := by
    rintro rfl
    rw [any_of_cons queued] at unclosed
    simp [Handler.closes] at unclosed
  cases alive : state.io.connections (.accepted id) with
  | none =>
      have kept : (Turn.run options state.dispatcher.notificationScope outcome
          (.peer (.accepted id) peerHandler) { io := state.io }) = { io := state.io } := by
        simp [Turn.run, Turn.runPeer, alive]
      have untouched : Untouched id state
          (state.afterHandler options rest (.peer (.accepted id) peerHandler) outcome) :=
        handled_untouched queued outcome (by rw [kept]; exact (Turn.Tame.refl id _).spares _)
      have none : decodedOf id (decodings options state (.handler outcome)) = [] := by
        simp [decodings, queued, alive, decodedOf]
      rw [none, List.append_nil]
      exact untouched.served served unclosed
  | some connection =>
      obtain ⟨credentials, token, captured⟩ := Turn.slots_accepted connection
      have unfinished : (PeerTurn.run options peerHandler { peer := connection.peer }).completed =
          false := by
        rw [(PeerTurn.run_shape options peerHandler connection.peer).completed]
        exact decide_eq_false open'
      have noted : decodedOf id (decodings options state (.handler outcome)) =
          if connection.peer.isOpen then (connection.peer.decoded? options peerHandler).toList
          else [] := by
        simp only [decodings, queued, alive]
        split
        · simp [decodedOf, List.filterMap_map]
        · rfl
      rw [noted]
      refine served.reports unclosed alive captured rfl ?_ rfl ?_ ?_ ?_
      · simp [State.afterHandler, Turn.run, Turn.runPeer, alive]
      · simp [State.afterHandler, Turn.run, Turn.runPeer, alive, captured, unfinished]
      · simp [State.afterHandler, Turn.run, Turn.runPeer, alive]
      · intro erasing
        have posted : ∀ posts : List PeerHandler,
            (posts.map (Handler.peer (.accepted id))).any (Handler.erases id) = false := by
          simp [Handler.erases]
        simp only [State.afterHandler, Turn.run, Turn.runPeer, alive, List.nil_append,
          List.any_append, posted, Bool.or_false] at erasing
        rw [any_of_cons queued, erasing, Bool.or_true]

/-- A connection is accepted: it owes nothing yet. -/
theorem accepted_served (queued : state.handlers = handler :: rest) (outcome : BindOutcome)
    (accepts : Turn.Accepts state.dispatcher.notificationScope id { io := state.io } handler)
    (idle : ∀ job ∈ state.jobs, job.stage? id = none)
    (hidden : id ∉ state.dispatcher.exposedPeerIds)
    (unerased : state.handlers.any (Handler.erases id) = false) :
    toldOf id (handle options state.dispatcher state.io handler outcome).2.events = [] ∧
      Served id (state.afterHandler options rest handler outcome) [] [] := by
  cases handler with
  | accept accept result =>
      cases result with
      | error errorCode => exact accepts.elim
      | socket credentials =>
          obtain ⟨current, rfl⟩ := accepts
          let born : Turn :=
            { io := { state.io with
                nextPeerId := state.io.nextPeerId + 1
                peers := state.io.peers ++ [state.io.nextPeerId + 1]
                connections := Function.update state.io.connections
                  (.accepted (state.io.nextPeerId + 1))
                  (some { peer := {}
                          slots := .accepted (state.io.nextPeerId + 1) credentials accept.token
                          named := rfl }) }
              events := [.accepted (state.io.nextPeerId + 1) credentials]
              posts := [.peer (.accepted (state.io.nextPeerId + 1)) .start] }
          have turn : Turn.run options state.dispatcher.notificationScope outcome
              (.accept accept (.socket credentials)) { io := state.io } =
                born.accept state.dispatcher.notificationScope accept.token := by
            simp [Turn.run, Turn.onAccept, Turn.handleAcceptedSocket, current, born, Turn.emit,
              Turn.post]
          have internal :=
            (Turn.accept_pieces state.dispatcher.notificationScope accept.token born).internal
          have spares := (internal.tame (state.io.nextPeerId + 1)).spares False
          generalize born.accept state.dispatcher.notificationScope accept.token = after
            at turn internal spares
          have connected := internal.connections (state.io.nextPeerId + 1)
          simp only [born, Function.update_self] at connected
          obtain ⟨more, jobs, unstaged⟩ := spares.jobs
          have jobs : after.jobs = more := jobs
          have all : ∀ job ∈ state.jobs ++ after.jobs,
              job.stage? (state.io.nextPeerId + 1) = none := by
            rw [jobs]
            exact fun job member => (List.mem_append.mp member).elim (idle job) (unstaged job)
          have silent : after.events.filterMap (Event.told? (state.io.nextPeerId + 1)) = [] :=
            spares.events.filterMap_eq fun _ unmarked => told?_of_unmarked unmarked
          simp only [State.afterHandler, handle, toldOf, turn]
          refine ⟨silent, .silent ?_ ?_ ?_ (owed_eq_nil all), ?_, ?_, ?_, ?_, ?_, ?_⟩
          · simp [State.passage, connected]
          · simp [State.passage, connected]
          · simpa [State.passage] using hidden
          · intro connection same
            rw [connected, Option.some.injEq] at same
            rw [← same]
            exact current
          · intro job member token own
            rw [Job.token?_of_unstaged (all job member)] at own
            cases own
          · exact fun job member => (Job.owes_nothing (all job (List.mem_of_mem_tail member))).2.1
          · have none : (state.jobs ++ after.jobs).filterMap
                (Job.brings? (state.io.nextPeerId + 1)) = [] :=
              List.filterMap_eq_nil_iff.mpr fun job member =>
                (Job.owes_nothing (all job member)).2.2
            simp only [none, List.count_nil, Nat.zero_add]
            exact Bool.toNat_le _
          · refine .inl ?_
            rw [internal.peers]
            simp [born]
          · intro erasing
            have unposted := spares.posts.any_eq fun handler harmless => harmless
            rw [any_of_cons queued, Bool.or_eq_false_iff] at unerased
            rw [List.any_append, unposted, unerased.2] at erasing
            cases erasing
  | _ => exact accepts.elim

end

/-! ### Jobs -/

section

variable {job : Job} {rest : List Job} {verdict : Bool}

theorem performed_untouched (queued : state.jobs = job :: rest) (idle : job.stage? id = none)
    (plain : job.stops = false) (verdict : Bool) :
    Untouched id state (state.performed rest job verdict) := by
  have visible : job ≠ .clearExposedPeerIds := by
    rintro rfl
    cases plain
  have effect := perform_ignored idle visible state.dispatcher verdict
  refine ⟨rfl, rfl, fun later alive => ⟨later, alive, rfl⟩, effect.exposed, fun token now => ?_,
    ?_, fun relays => ?_, fun listed => .inl listed, fun erasing => ?_⟩
  · simp only [State.performed, perform_scope]
    cases job with
    | start =>
        rw [NotificationScope.isCurrent_iff] at now ⊢
        exact ⟨rfl, now.2⟩
    | stop => cases plain
    | invalidateScope => cases plain
    | _ => exact now
  · simp only [State.performed, work_append, work_eq_nil effect.next, work_eq_nil effect.jobs,
      List.nil_append, List.append_nil, queued]
    simp [work, idle]
  · rw [queued] at relays
    intro later member
    have listed := List.mem_of_mem_tail member
    simp only [State.performed, List.mem_append] at listed
    rcases listed with (next | old) | new
    · exact (Job.owes_nothing (effect.next later next)).2.1
    · exact relays later old
    · exact (Job.owes_nothing (effect.jobs later new)).2.1
  · simp only [State.performed, List.any_append, Bool.or_eq_true] at erasing
    refine erasing.resolve_right fun posted => ?_
    obtain ⟨handler, member, erases⟩ := List.any_eq_true.mp posted
    rw [(effect.posts handler member).2.2] at erases
    cases erases

/-- A job of the peer's own leaves the account in order. -/
theorem Served.performs {told' : List Told} (served : Served id state decoded told)
    (queued : state.jobs = job :: rest)
    (unclosed : state.handlers.any (Handler.closes id) = false)
    (scope : (perform state.dispatcher job verdict).1.notificationScope =
      state.dispatcher.notificationScope)
    (delivery : Delivery ((state.performed rest job verdict).passage id) decoded told')
    (tokens : ∀ later ∈ (perform state.dispatcher job verdict).2.next ++
      (perform state.dispatcher job verdict).2.jobs, ∀ token ∈ later.token? id,
        token ∈ job.token? id)
    (relays : ∀ later ∈ (perform state.dispatcher job verdict).2.next.tail ++
      (perform state.dispatcher job verdict).2.jobs, later.relays? id = none)
    (brings : ∀ later ∈ (perform state.dispatcher job verdict).2.next ++
      (perform state.dispatcher job verdict).2.jobs, later.brings? id = none)
    (posts : (perform state.dispatcher job verdict).2.posts.any (Handler.erases id) = true →
      (state.passage id).isOpen = false ∧ .closed ∉ rest.filterMap (Job.brings? id)) :
    Served id (state.performed rest job verdict) decoded told' := by
  have brought : (state.performed rest job verdict).jobs.filterMap (Job.brings? id) =
      rest.filterMap (Job.brings? id) := by
    have next : (perform state.dispatcher job verdict).2.next.filterMap (Job.brings? id) = [] :=
      List.filterMap_eq_nil_iff.mpr fun later member =>
        brings later (List.mem_append_left _ member)
    have jobs : (perform state.dispatcher job verdict).2.jobs.filterMap (Job.brings? id) = [] :=
      List.filterMap_eq_nil_iff.mpr fun later member =>
        brings later (List.mem_append_right _ member)
    simp only [State.performed, List.filterMap_append, next, jobs, List.nil_append,
      List.append_nil]
  have fewer : (rest.filterMap (Job.brings? id)).Sublist
      (state.jobs.filterMap (Job.brings? id)) := by
    rw [queued]
    exact (List.sublist_cons_self job rest).filterMap _
  have past : state.Past id → (state.performed rest job verdict).Past id := by
    rintro ⟨closed, reported⟩
    rw [State.Past, brought]
    exact ⟨closed, fun member => reported (fewer.subset member)⟩
  refine ⟨delivery, ?_, ?_, ?_, ?_, ?_, ?_⟩
  · intro connection alive
    simp only [State.performed, scope]
    exact served.slots connection alive
  · intro later member token captured
    simp only [State.performed, scope]
    simp only [State.performed, List.mem_append] at member
    have kept : later ∈ rest ∨ later ∈ (perform state.dispatcher job verdict).2.next ++
        (perform state.dispatcher job verdict).2.jobs := by
      rw [List.mem_append]
      tauto
    rcases kept with old | new
    · exact served.tokens later (by simp [queued, old]) token captured
    · exact served.tokens job (by simp [queued]) token (tokens later new token captured)
  · have old := served.relays
    rw [queued] at old
    intro later member
    simp only [State.performed] at member
    cases next : (perform state.dispatcher job verdict).2.next with
    | nil =>
        rw [next] at member relays
        have listed := List.mem_of_mem_tail member
        rw [List.nil_append] at listed
        exact (List.mem_append.mp listed).elim (old later) fun new =>
          relays later (List.mem_append_right _ new)
    | cons first others =>
        rw [next] at member relays
        simp only [List.cons_append, List.tail_cons, List.mem_append] at member relays
        rcases member with (front | middle) | back
        · exact relays later (.inl front)
        · exact old later middle
        · exact relays later (.inr back)
  · rw [brought]
    exact Nat.le_trans (Nat.add_le_add_right (fewer.count_le _) _) served.once
  · rcases served.held with listed | closing | before
    · exact .inl listed
    · rw [unclosed] at closing
      cases closing
    · exact .inr (.inr (past before))
  · intro erasing
    simp only [State.performed, List.any_append, Bool.or_eq_true] at erasing
    rcases erasing with old | posted
    · exact past (served.erasing old)
    · rw [State.Past, brought]
      exact posts posted

/-- The queue behind a job of the peer's own holds no relay. -/
theorem Served.rest_relays (served : Served id state decoded told)
    (queued : state.jobs = job :: rest) : rest.filterMap (Job.relays? id) = [] := by
  have relays := served.relays
  rw [queued] at relays
  exact List.filterMap_eq_nil_iff.mpr relays

/-- The slot of a signal enqueues its notification. -/
theorem signal_served {credentials : PeerCredentials} {token : Nat} {sent : Signal}
    (served : Served id state decoded told)
    (queued : state.jobs = .signal (.accepted id credentials token) sent :: rest)
    (unclosed : state.handlers.any (Handler.closes id) = false) :
    Served id (state.performed rest (.signal (.accepted id credentials token) sent) verdict)
      decoded told := by
  have none := served.rest_relays queued
  have same : (state.performed rest (.signal (.accepted id credentials token) sent)
      verdict).passage id = state.passage id := by
    cases sent <;>
      simp [State.passage, State.performed, perform, slot, acceptedSlot, owed, queued, none,
        Job.passes?, Job.relays?, Job.brings?, Signal.item?, List.filterMap_cons]
  have once := served.once
  refine served.performs queued unclosed rfl (served.delivery.congr same) ?_ ?_ ?_ ?_
  · cases sent <;> simp [perform, slot, acceptedSlot, Job.token?]
  · cases sent <;> simp [perform, slot, acceptedSlot, Job.relays?]
  · cases sent <;> simp [perform, slot, acceptedSlot, Job.brings?]
  · cases sent with
    | closed =>
        intro _
        simp only [queued, List.filterMap_cons, Job.brings?, Signal.item?, if_true,
          List.count_cons_self] at once
        have shut : (state.passage id).isOpen.toNat = 0 := by omega
        exact ⟨by simpa using shut, List.count_eq_zero.mp (by omega)⟩
    | _ => simp [perform, slot, acceptedSlot, Handler.erases]

/-- The queued announcement of a peer is current. -/
theorem Served.current {credentials : PeerCredentials} {token : Nat}
    (served : Served id state decoded told)
    (queued : state.jobs = .notify token (.ready id credentials) :: rest) :
    state.dispatcher.notificationScope.isCurrent token = true := by
  have listed : Job.notify token (.ready id credentials) ∈ state.jobs := by simp [queued]
  exact served.tokens _ listed token (by simp [Job.token?])

/-- A verified peer is announced. -/
theorem ready_served {credentials : PeerCredentials} {token : Nat}
    (served : Served id state decoded told)
    (queued : state.jobs = .notify token (.ready id credentials) :: rest)
    (unclosed : state.handlers.any (Handler.closes id) = false) :
    Served id (state.performed rest (.notify token (.ready id credentials)) true) decoded
      (told ++ [.connected]) := by
  have current := served.current queued
  have head : (state.passage id).owed = .ready :: owed id rest := by
    simp [State.passage, owed, queued, Job.passes?, Job.relays?, Job.brings?,
      List.filterMap_cons]
  have effect : perform state.dispatcher (.notify token (.ready id credentials)) true =
      notify state.dispatcher true (.ready id credentials) := by
    simp only [perform, if_pos current]
  refine served.performs queued unclosed (by rw [effect]; rfl)
    ((served.delivery.expose head).congr ?_) ?_ ?_ ?_ ?_
  · simp [State.passage, State.performed, effect, notify]
  all_goals simp [effect, notify]

/-- A message is told while the peer is exposed. -/
theorem message_served {message : Message} {event : Event}
    (served : Served id state decoded told) (queued : state.jobs = job :: rest)
    (unclosed : state.handlers.any (Handler.closes id) = false)
    (effect : perform state.dispatcher job verdict = ifExposed state.dispatcher id event)
    (passes : job.passes? id = some (.message message)) (relays : job.relays? id = none)
    (brings : job.brings? id = none) :
    Served id (state.performed rest job verdict) decoded
      (told ++ if (state.passage id).exposed then [.message message] else []) := by
  have head : (state.passage id).owed = .message message :: owed id rest := by
    simp [State.passage, owed, queued, passes, relays, brings]
  refine served.performs queued unclosed (by rw [effect]; rfl)
    ((served.delivery.deliver head).congr ?_) ?_ ?_ ?_ ?_
  · simp [State.passage, State.performed, effect, ifExposed]
  all_goals simp [effect, ifExposed]

theorem enqueueClosed_served (served : Served id state decoded told)
    (queued : state.jobs = .enqueuePeerClosed id :: rest)
    (unclosed : state.handlers.any (Handler.closes id) = false) :
    Served id (state.performed rest (.enqueuePeerClosed id) verdict) decoded told := by
  have none := served.rest_relays queued
  have same : (state.performed rest (.enqueuePeerClosed id) verdict).passage id =
      state.passage id := by
    simp [State.passage, State.performed, perform, owed, queued, none, Job.passes?, Job.relays?,
      Job.brings?, List.filterMap_cons]
  refine served.performs queued unclosed rfl (served.delivery.congr same) ?_ ?_ ?_ ?_
  all_goals simp [perform, Job.token?, Job.relays?, Job.brings?]

theorem enqueueError_served {errorCode : ErrorCode} (served : Served id state decoded told)
    (queued : state.jobs = .enqueuePeerErrorOccurred id errorCode :: rest)
    (unclosed : state.handlers.any (Handler.closes id) = false) :
    Served id (state.performed rest (.enqueuePeerErrorOccurred id errorCode) verdict) decoded
      told := by
  have same : (state.performed rest (.enqueuePeerErrorOccurred id errorCode) verdict).passage id =
      state.passage id := by
    simp [State.passage, State.performed, perform, owed, queued, Job.passes?, Job.relays?,
      Job.brings?, List.filterMap_cons]
  refine served.performs queued unclosed rfl (served.delivery.congr same) ?_ ?_ ?_ ?_
  all_goals simp [perform, Job.token?, Job.relays?, Job.brings?]

theorem error_served {errorCode : ErrorCode} (served : Served id state decoded told)
    (queued : state.jobs = .peerErrorOccurred id errorCode :: rest)
    (unclosed : state.handlers.any (Handler.closes id) = false) :
    Served id (state.performed rest (.peerErrorOccurred id errorCode) verdict) decoded
      (told ++ if (state.passage id).exposed then [.error] else []) := by
  have same : (state.performed rest (.peerErrorOccurred id errorCode) verdict).passage id =
      state.passage id := by
    simp [State.passage, State.performed, perform, ifExposed, owed, queued, Job.passes?,
      Job.relays?, Job.brings?, List.filterMap_cons]
  refine served.performs queued unclosed rfl (served.delivery.fail.congr same) ?_ ?_ ?_ ?_
  all_goals simp [perform, ifExposed]

theorem closed_served (served : Served id state decoded told)
    (queued : state.jobs = .peerClosed id :: rest)
    (unclosed : state.handlers.any (Handler.closes id) = false) :
    Served id (state.performed rest (.peerClosed id) verdict) decoded
      (told ++ if (state.passage id).exposed then [.closed] else []) := by
  have head : (state.passage id).owed = .closed :: owed id rest := by
    simp [State.passage, owed, queued, Job.passes?, Job.relays?, Job.brings?,
      List.filterMap_cons]
  refine served.performs queued unclosed rfl ((served.delivery.close head).congr ?_) ?_ ?_ ?_ ?_
  · simp [State.passage, State.performed, perform]
  all_goals simp [perform]

/-- The job calls `verify_peer_` for the peer. -/
def Job.verifies (id : Nat) : Job → Bool
  | .notify _ (.ready owner _) => owner == id
  | _ => false

/-- Every job keeps the account, unless it stops the server or rejects the peer. -/
theorem job_served (served : Served id state decoded told) (queued : state.jobs = job :: rest)
    (unclosed : state.handlers.any (Handler.closes id) = false) (plain : job.stops = false)
    (verified : job.verifies id = true → verdict = true) :
    Served id (state.performed rest job verdict) decoded
      (told ++ toldOf id (perform state.dispatcher job verdict).2.events) := by
  by_cases idle : job.stage? id = none
  · have visible : job ≠ .clearExposedPeerIds := by
      rintro rfl
      cases plain
    have untouched := performed_untouched queued idle plain verdict
    rw [toldOf_eq_nil (perform_ignored idle visible state.dispatcher verdict).events,
      List.append_nil]
    exact untouched.served served unclosed
  have own : ∀ {owner : Nat} {stage : Stage}, ¬ (if owner = id then some stage else none) = none →
      owner = id := by
    intro owner stage work
    by_contra other
    exact work (if_neg other)
  have exposing : ∀ {event : Event} {news : Told}, event.told? id = some news →
      toldOf id (if id ∈ state.dispatcher.exposedPeerIds then [event] else []) =
        if (state.passage id).exposed then [news] else [] := by
    intro event news tells
    simp only [State.passage, decide_eq_true_eq]
    split <;> simp [toldOf, tells]
  cases job with
  | signal slots sent =>
      cases slots with
      | healthCheck probe => exact absurd rfl idle
      | accepted owner credentials token =>
          obtain rfl := own idle
          have silent : toldOf owner (perform state.dispatcher
              (.signal (.accepted owner credentials token) sent) verdict).2.events = [] := by
            cases sent <;> rfl
          rw [silent, List.append_nil]
          exact signal_served served queued unclosed
  | notify token notice =>
      cases notice with
      | ready owner credentials =>
          obtain rfl := own idle
          obtain rfl := verified (by simp [Job.verifies])
          have current := served.current queued
          have announced : toldOf owner (perform state.dispatcher
              (.notify token (.ready owner credentials)) true).2.events = [.connected] := by
            simp only [perform, if_pos current]
            simp [notify, toldOf, List.filterMap_cons, Event.told?]
          rw [announced]
          exact ready_served served queued unclosed
      | _ => exact absurd rfl idle
  | enqueuePeerErrorOccurred owner errorCode =>
      obtain rfl := own idle
      rw [show toldOf owner _ = [] from rfl, List.append_nil]
      exact enqueueError_served served queued unclosed
  | enqueuePeerClosed owner =>
      obtain rfl := own idle
      rw [show toldOf owner _ = [] from rfl, List.append_nil]
      exact enqueueClosed_served served queued unclosed
  | received owner buffer =>
      obtain rfl := own idle
      have tells : (Event.received owner buffer).told? owner =
          some (.message (.received buffer)) := if_pos rfl
      simp only [perform, ifExposed]
      rw [exposing tells]
      exact message_served served queued unclosed rfl (by simp [Job.passes?]) rfl rfl
  | requestReceived owner requestId buffer =>
      obtain rfl := own idle
      have tells : (Event.requestReceived owner requestId buffer).told? owner =
          some (.message (.requestReceived requestId buffer)) := if_pos rfl
      simp only [perform, ifExposed]
      rw [exposing tells]
      exact message_served served queued unclosed rfl (by simp [Job.passes?]) rfl rfl
  | peerErrorOccurred owner errorCode =>
      obtain rfl := own idle
      have tells : (Event.peerErrorOccurred owner errorCode).told? owner = some .error := if_pos rfl
      simp only [perform, ifExposed]
      rw [exposing tells]
      exact error_served served queued unclosed
  | peerClosed owner =>
      obtain rfl := own idle
      have tells : (Event.peerClosed owner).told? owner = some .closed := if_pos rfl
      simp only [perform]
      rw [exposing tells]
      exact closed_served served queued unclosed
  | _ => exact absurd rfl idle

end

/-! ### The environment -/

/-- Further work in the queues that is none of the peer's, with its object as it was. -/
theorem outside_untouched {after : State} {handlers : List Handler} {jobs : List Job}
    (connection : after.io.connections (.accepted id) = state.io.connections (.accepted id))
    (peers : after.io.peers = state.io.peers) (dispatcher : after.dispatcher = state.dispatcher)
    (posted : after.handlers = state.handlers ++ handlers)
    (harmless : ∀ handler ∈ handlers, handler.erases id = false)
    (queued : after.jobs = state.jobs ++ jobs) (idle : ∀ job ∈ jobs, job.stage? id = none) :
    Untouched id state after := by
  have erases : handlers.any (Handler.erases id) = false :=
    List.any_eq_false.mpr fun handler member => by simp [harmless handler member]
  refine ⟨?_, ?_, fun later alive => ⟨later, connection ▸ alive, rfl⟩, by rw [dispatcher],
    fun _ now => dispatcher ▸ now, ?_, fun relays => ?_, fun listed => .inl (peers ▸ listed),
    fun erasing => ?_⟩
  · simp only [State.passage, connection]
  · simp only [State.passage, connection]
  · rw [queued, work_append, work_eq_nil idle, List.append_nil]
  · rw [queued]
    exact tail_append idle relays
  · simpa only [posted, List.any_append, erases, Bool.or_false] using erasing

theorem posted_untouched {io : Io} {handler : Handler}
    (connections : io.connections = state.io.connections) (peers : io.peers = state.io.peers)
    (harmless : handler.erases id = false) :
    Untouched id state (post handler { state with io }) :=
  @outside_untouched id state _ [handler] [] (by rw [← connections]; rfl) peers rfl rfl
    (by simpa using harmless) (List.append_nil _).symm nofun

theorem enqueued_untouched {job : Job} (idle : job.stage? id = none) :
    Untouched id state (enqueue job state) :=
  @outside_untouched id state _ [] [job] rfl rfl rfl (List.append_nil _).symm nofun rfl
    (by simpa using idle)

/-- A completed operation of the peer object. -/
theorem completed_untouched {ref : PeerRef} {connection : Connection ref}
    {completion : PeerCompletion} {peer : Peer} {handler : PeerHandler}
    (alive : state.io.connections ref = some connection)
    (completes : connection.peer.complete? completion = some (peer, handler)) :
    Untouched id state
      (post (.peer ref handler)
        { state with
          io := { state.io with
            connections := Function.update state.io.connections ref
              (some { connection with peer }) } }) := by
  obtain ⟨isOpen, ready, _⟩ := Peer.complete?_keeps completes
  by_cases own : ref = .accepted id
  case neg =>
    refine @outside_untouched id state _ [_] [] ?_ rfl rfl rfl ?_ (List.append_nil _).symm nofun
    · simp [post, Function.update_of_ne (Ne.symm own)]
    · simp [Handler.erases]
  case pos =>
    subst own
    refine ⟨?_, ?_, ?_, .rfl, fun _ now => now, rfl, fun relays => relays, .inl, ?_⟩
    · simp [State.passage, post, alive, isOpen]
    · simp [State.passage, post, alive, ready]
    · intro later same
      simp only [post, Function.update_self, Option.some.injEq] at same
      exact ⟨connection, alive, by rw [← same]⟩
    · simp [post, Handler.erases]

theorem mem_tail_of_filter {test : Job → Bool} {jobs : List Job} {job : Job}
    (member : job ∈ (jobs.filter test).tail) : job ∈ jobs.tail := by
  cases jobs with
  | nil => cases member
  | cons first rest =>
      rw [List.filter_cons] at member
      split at member
      · exact (List.mem_filter.mp member).1
      · exact (List.mem_filter.mp (List.mem_of_mem_tail member)).1

/-- Another peer object comes to its end. -/
theorem destroyed_untouched {ref : PeerRef} (other : ref ≠ .accepted id) :
    Untouched id state
      { state with
        io := { state.io with connections := Function.update state.io.connections ref none }
        jobs := state.jobs.filter fun job => !job.isOf ref } := by
  have connection : Function.update state.io.connections ref none (.accepted id) =
      state.io.connections (.accepted id) := Function.update_of_ne (Ne.symm other) ..
  refine ⟨?_, ?_, fun later alive => ⟨later, connection ▸ alive, rfl⟩, .rfl, fun _ now => now,
    ?_, fun relays => ?_, .inl, fun erasing => erasing⟩
  · simp only [State.passage, connection]
  · simp only [State.passage, connection]
  · simp only [work, List.filter_filter]
    congr 1
    funext job
    have kept := stage?_kept other job
    cases owned : job.isOf ref with
    | false => simp
    | true =>
        rw [owned] at kept
        simp [← kept]
  · exact fun job member => relays job (mem_tail_of_filter member)

theorem not_mem_of_released {connection : Connection (.accepted id)}
    (released : released state connection = true) : id ∉ state.io.peers := by
  simp only [Server.released, Io.holds, Bool.and_eq_true, Bool.not_eq_true'] at released
  simpa using released.1.1

/-- What a job shows of a peer whose object has ended. -/
theorem destroyed_views (id : Nat) (jobs : List Job) :
    (jobs.filter fun job => !job.isOf (.accepted id)).filterMap (Job.passes? id) =
        jobs.filterMap (Job.passes? id) ∧
      (jobs.filter fun job => !job.isOf (.accepted id)).filterMap (Job.relays? id) =
        jobs.filterMap (Job.relays? id) ∧
      (jobs.filter fun job => !job.isOf (.accepted id)).filterMap (Job.brings? id) = [] := by
  refine ⟨?_, ?_, ?_⟩
  · rw [List.filterMap_filter]
    congr 1
    funext job
    cases job <;> simp [Job.isOf, Job.passes?]
  · rw [List.filterMap_filter]
    congr 1
    funext job
    cases job <;> simp [Job.isOf, Job.relays?]
  · refine List.filterMap_eq_nil_iff.mpr fun job member => ?_
    have foreign := (List.mem_filter.mp member).2
    cases job with
    | signal slots sent =>
        cases slots with
        | healthCheck => rfl
        | accepted owner credentials token =>
            have different : owner ≠ id := by simpa [Job.isOf, Slots.ref] using foreign
            simp [Job.brings?, different]
    | _ => rfl

/-- The peer object comes to its end, when its close has been noticed. -/
theorem destroyed_served {connection : Connection (.accepted id)}
    (served : Served id state decoded told)
    (unclosed : state.handlers.any (Handler.closes id) = false)
    (released : released state connection = true) :
    Served id
      { state with
        io := { state.io with
          connections := Function.update state.io.connections (.accepted id) none }
        jobs := state.jobs.filter fun job => !job.isOf (.accepted id) } decoded told := by
  obtain ⟨passes, relays, brings⟩ := destroyed_views id state.jobs
  have past : state.Past id := by
    rcases served.held with listed | closing | past
    · exact absurd listed (not_mem_of_released released)
    · rw [unclosed] at closing
      cases closing
    · exact past
  have owes : (state.passage id).owed =
      owed id (state.jobs.filter fun job => !job.isOf (.accepted id)) ++
        state.jobs.filterMap (Job.brings? id) := by
    simp only [State.passage, owed, passes, relays, brings, List.append_nil, List.append_assoc]
  refine ⟨(served.delivery.destroy past.1 owes past.2).congr ?_, ?_, ?_, ?_, ?_, ?_, ?_⟩
  · simp [State.passage]
  · intro later alive
    simp at alive
  · intro job member
    exact served.tokens job (List.mem_filter.mp member).1
  · exact fun job member => served.relays job (mem_tail_of_filter member)
  · simp [State.passage, brings]
  · refine .inr (.inr ⟨?_, ?_⟩)
    · simp [State.passage]
    · simp [brings]
  · refine fun _ => ⟨?_, ?_⟩
    · simp [State.passage]
    · simp [brings]

/-- What the environment does keeps the account. -/
theorem accepts_served {input : Input} {events : List Event}
    (served : Served id state decoded told)
    (unclosed : state.handlers.any (Handler.closes id) = false)
    (accepts : Accepts state input events state') :
    Served id state' decoded told := by
  cases accepts with
  | asyncStart => exact (enqueued_untouched rfl).served served unclosed
  | asyncStop => exact (enqueued_untouched rfl).served served unclosed
  | asyncSend =>
      refine Untouched.served (posted_untouched ?_ ?_ ?_) served unclosed
      all_goals rfl
  | asyncRespond =>
      refine Untouched.served (posted_untouched ?_ ?_ ?_) served unclosed
      all_goals rfl
  | asyncRequest =>
      refine Untouched.served (posted_untouched ?_ ?_ ?_) served unclosed
      all_goals rfl
  | asyncClosePeer =>
      refine Untouched.served (posted_untouched ?_ ?_ ?_) served unclosed
      all_goals rfl
  | acceptCompletes =>
      refine Untouched.served (posted_untouched ?_ ?_ ?_) served unclosed
      all_goals rfl
  | peerCompletes alive completes =>
      exact (completed_untouched alive completes).served served unclosed
  | requestExpires =>
      refine Untouched.served (posted_untouched ?_ ?_ ?_) served unclosed
      all_goals rfl
  | healthCheckExpires =>
      refine Untouched.served (posted_untouched ?_ ?_ ?_) served unclosed
      all_goals rfl
  | healthCheckConnects =>
      refine Untouched.served (posted_untouched ?_ ?_ ?_) served unclosed
      all_goals rfl
  | @destroy ref connection alive released =>
      by_cases own : ref = .accepted id
      · subst own
        exact destroyed_served served unclosed released
      · exact (destroyed_untouched own).served served unclosed

/-- A delayed job is none of the peer's. -/
theorem delayed_untouched {index : Nat} {job : Job} (idle : state.jobs = [])
    (session : job.isSession = true) :
    Untouched id state
      { state with jobs := [job], delayed := state.delayed.eraseIdx index } := by
  refine ⟨rfl, rfl, fun later alive => ⟨later, alive, rfl⟩, .rfl, fun _ now => now, ?_,
    fun _ later member => (nomatch member), .inl, fun erasing => erasing⟩
  simp [work, idle, Job.stage?_of_isSession session]

/-! ## Runs -/

/-- Nothing comes to close the peer from this side: no close of it is queued, the server is
not stopped, and `verify_peer_` accepts it.  Before the connection is accepted, and once its
object has ended with no job queued for it, anything may happen. -/
def Undisturbed (id : Nat) (state : State) (label : Label) : Prop :=
  (state.life id).created = false ∨
    ((state.life id).alive = false ∧ (state.life id).stages = []) ∨
    state.handlers.any (Handler.closes id) = false ∧
      match label with
      | .job verdict =>
          state.jobs.head?.all (fun job => !job.stops && (!job.verifies id || verdict)) = true
      | _ => True

instance (id : Nat) (state : State) (label : Label) : Decidable (Undisturbed id state label) :=
  match label with
  | .job verdict =>
      inferInstanceAs (Decidable (_ ∨ _ ∨ _ ∧ state.jobs.head?.all (fun job =>
        !job.stops && (!job.verifies id || verdict)) = true))
  | .handler _ => inferInstanceAs (Decidable (_ ∨ _ ∨ _ ∧ True))
  | .delayed _ => inferInstanceAs (Decidable (_ ∨ _ ∨ _ ∧ True))
  | .input _ => inferInstanceAs (Decidable (_ ∨ _ ∨ _ ∧ True))

/-- The account of a peer in every state of its life. -/
inductive Account (id : Nat) (state : State) : List Message → List Told → Prop where
  | unborn (fresh : (state.life id).created = false) : Account id state [] []
  | served {decoded : List Message} {told : List Told} (created : (state.life id).created = true)
      (served : Served id state decoded told) : Account id state decoded told
  | ended {decoded : List Message} {told : List Told} (finished : (state.life id).Over)
      (passed : PassedOn decoded told []) : Account id state decoded told

section

variable {options : CommonOptions}

theorem idle_of_stages (idle : (state.life id).stages = []) :
    ∀ job ∈ state.jobs, job.stage? id = none := List.filterMap_eq_nil_iff.mp idle

theorem Account.passedOn (account : Account id state decoded told) :
    PassedOn decoded told (owed id state.jobs) := by
  cases account with
  | unborn => exact .inl rfl
  | served created served => exact served.delivery.passedOn
  | ended finished passed =>
      rw [owed_eq_nil (idle_of_stages finished.idle)]
      exact passed

/-- Without its object a peer decodes nothing. -/
theorem decodings_of_none (gone : state.io.connections (.accepted id) = none) (label : Label) :
    decodedOf id (decodings options state label) = [] := by
  unfold decodings
  split
  · split
    case h_1 owner handler rest queued =>
      by_cases own : owner = id
      · subst own
        simp [gone, decodedOf]
      · split
        · split
          · simp [decodedOf, own]
          · rfl
        · rfl
    · rfl
  · rfl

theorem connection_of_dead (dead : (state.life id).alive = false) :
    state.io.connections (.accepted id) = none := by
  simpa [State.life] using dead

/-- A handler keeps the account. -/
theorem handler_served {handler : Handler} {rest : List Handler}
    (served : Served id state decoded told) (queued : state.handlers = handler :: rest)
    (outcome : BindOutcome) (unclosed : state.handlers.any (Handler.closes id) = false)
    (created : (state.life id).created = true) :
    Served id (state.afterHandler options rest handler outcome)
      (decoded ++ decodedOf id (decodings options state (.handler outcome)))
      (told ++ toldOf id (handle options state.dispatcher state.io handler outcome).2.events) := by
  by_cases own : handler.isOf (.accepted id) = true
  · obtain ⟨peerHandler, rfl⟩ : ∃ peerHandler, handler = .peer (.accepted id) peerHandler := by
      cases handler with
      | peer ref peerHandler => exact ⟨peerHandler, by rw [beq_iff_eq.mp own]⟩
      | _ => cases own
    have silent : toldOf id (handle options state.dispatcher state.io
        (.peer (.accepted id) peerHandler) outcome).2.events = [] := by
      simp only [handle, Turn.run, Turn.runPeer]
      split
      · rfl
      · exact toldOf_eq_nil (List.filterMap_eq_nil_iff.mpr (Turn.framesRead_unmarked _ _))
    rw [silent, List.append_nil]
    exact peer_served served queued outcome unclosed
  · have born : ¬ Turn.Accepts state.dispatcher.notificationScope id { io := state.io } handler := by
      have numbered : 0 < id ∧ id ≤ state.io.nextPeerId := of_decide_eq_true created
      cases handler with
      | accept accept result =>
          cases result with
          | error errorCode => exact False.elim
          | socket credentials =>
              rintro ⟨_, fresh⟩
              have fresh : state.io.nextPeerId + 1 = id := fresh
              omega
      | _ => exact False.elim
    have spares := Turn.run_spares options outcome (by simpa using own) born
    have undecoded : decodedOf id (decodings options state (.handler outcome)) = [] := by
      simp only [decodings, queued]
      split
      case h_1 owner peerHandler others same =>
        obtain ⟨rfl, rfl⟩ := List.cons.inj same
        have different : owner ≠ id := by simpa [Handler.isOf] using own
        split
        · split
          · simp [decodedOf, different]
          · rfl
        · rfl
      · rfl
    have silent : toldOf id (handle options state.dispatcher state.io handler outcome).2.events =
        [] := toldOf_eq_nil (spares.events.filterMap_eq fun _ unmarked => unmarked)
    rw [undecoded, silent, List.append_nil, List.append_nil]
    exact (handled_untouched queued outcome spares).served served unclosed

/-- A step of the server, in terms of the account. -/
theorem step_served {label : Label} {events : List Event}
    (served : Served id state decoded told) (session : state.DelaysSession)
    (unclosed : state.handlers.any (Handler.closes id) = false)
    (verified : ∀ verdict, label = .job verdict → state.jobs.head?.all (fun job =>
      !job.stops && (!job.verifies id || verdict)) = true)
    (created : (state.life id).created = true)
    (step : (system options).step? state label = some (state', events)) :
    Served id state' (decoded ++ decodedOf id (decodings options state label))
      (told ++ toldOf id events) := by
  cases Program.step_of_eq_some step with
  | handler queued outcome => exact handler_served served queued outcome unclosed created
  | @job job rest queued verdict =>
      have permitted := verified verdict rfl
      simp only [queued, List.head?_cons, Option.all_some, Bool.and_eq_true, Bool.not_eq_true',
        Bool.or_eq_true] at permitted
      rw [show decodedOf id _ = [] from rfl, List.append_nil]
      refine job_served served queued unclosed permitted.1 fun verifies => ?_
      exact permitted.2.resolve_left (by simp [verifies])
  | @delayed index job idle due =>
      rw [show decodedOf id _ = [] from rfl, show toldOf id [] = [] from rfl, List.append_nil,
        List.append_nil]
      exact (delayed_untouched idle (session job (List.mem_of_getElem? due))).served served
        unclosed
  | input accepted =>
      have accepts := accepts_of_eq_some accepted
      have silent : toldOf id events = [] := by
        cases accepts <;> rfl
      rw [show decodedOf id _ = [] from rfl, silent, List.append_nil, List.append_nil]
      exact accepts_served served unclosed accepts

/-- Only the handler of an accept brings a peer to life. -/
theorem step_unborn {phase : Lifecycle.Phase} {label : Label} {events : List Event}
    (traced : Lifecycle.Traced phase (state.life id)) (fresh : (state.life id).created = false)
    (unerased : (state.life id).erasing = false)
    (step : (system options).step? state label = some (state', events)) :
    (state'.life id).created = false ∨ toldOf id events = [] ∧ Served id state' [] [] := by
  have same : ∀ {after : State}, (id ≤ after.io.nextPeerId ↔ id ≤ state.io.nextPeerId) →
      (after.life id).created = false := by
    intro after born
    rw [← fresh]
    exact decide_eq_decide.mpr (and_congr_right fun _ => born)
  cases Program.step_of_eq_some step with
  | @handler handler rest queued outcome =>
      by_cases accepts : Turn.Accepts state.dispatcher.notificationScope id { io := state.io }
        handler
      · have idle := idle_of_stages (traced.silent fresh).2
        have hidden : id ∉ state.dispatcher.exposedPeerIds := by
          intro exposed
          have shown : (state.life id).exposed = true := decide_eq_true exposed
          have first := (traced.silent fresh).1
          rw [traced.exposed shown] at first
          cases first
        exact .inr (accepted_served queued outcome accepts idle hidden unerased)
      · refine .inl (same ?_)
        by_cases own : handler.isOf (.accepted id) = true
        · cases handler with
          | peer ref peerHandler =>
              simp only [program, handle, Turn.run, Turn.runPeer]
              split <;> exact .rfl
          | _ => cases own
        · exact (Turn.run_spares options outcome (by simpa using own) accepts).born
  | job queued verdict => exact .inl (same .rfl)
  | delayed idle due => exact .inl (same .rfl)
  | input accepted =>
      refine .inl (same ?_)
      cases accepts_of_eq_some accepted <;> exact .rfl

/-- A step keeps the account, unless somebody closes the peer from this side. -/
theorem step_account {phase : Lifecycle.Phase} {label : Label} {events : List Event}
    (account : Account id state decoded told) (traced : Lifecycle.Traced phase (state.life id))
    (known : (state.life id).erasing = true → (state.life id).created = true)
    (unborn : (state'.life id).created = false → marks id events = [])
    (session : state.DelaysSession) (permit : Undisturbed id state label)
    (step : (system options).step? state label = some (state', events)) :
    Account id state' (decoded ++ decodedOf id (decodings options state label))
      (told ++ toldOf id events) := by
  have moves : Lifecycle.Moves False (state.life id) (marks id events) (state'.life id) :=
    step_moves traced session False.elim step
  have ended : ∀ {decoded : List Message} {told : List Told}, (state.life id).Over →
      PassedOn decoded told [] →
      Account id state' (decoded ++ decodedOf id (decodings options state label))
        (told ++ toldOf id events) := by
    intro decoded told finished passed
    obtain ⟨silent, still⟩ := finished.moves traced moves
    rw [decodings_of_none (connection_of_dead finished.dead), toldOf_eq_nil silent, List.append_nil,
      List.append_nil]
    exact .ended still passed
  cases account with
  | unborn fresh =>
      have unerased : (state.life id).erasing = false := by
        by_contra erasing
        rw [known (by simpa using erasing)] at fresh
        cases fresh
      have dead : (state.life id).alive = false := by
        by_contra alive
        rw [traced.created (by simpa using alive)] at fresh
        cases fresh
      rw [decodings_of_none (connection_of_dead dead)]
      rcases step_unborn traced fresh unerased step with still | ⟨silent, served⟩
      · rw [toldOf_eq_nil (unborn still)]
        exact .unborn still
      · rw [silent]
        cases created : (state'.life id).created with
        | false => exact .unborn created
        | true => exact .served created served
  | served created served =>
      rcases permit with fresh | ⟨dead, idle⟩ | ⟨unclosed, verified⟩
      · rw [created] at fresh
        cases fresh
      · have passed := served.delivery.passedOn
        simp only [State.passage, owed_eq_nil (idle_of_stages idle)] at passed
        exact ended ⟨created, dead, idle⟩ passed
      · refine .served (moves.created created) (step_served served session unclosed ?_ created step)
        rintro verdict rfl
        exact verified
  | ended finished passed => exact ended finished passed

theorem decodedOf_append (id : Nat) (first second : List (Nat × Message)) :
    decodedOf id (first ++ second) = decodedOf id first ++ decodedOf id second :=
  List.filterMap_append ..

theorem toldOf_append (id : Nat) (first second : List Event) :
    toldOf id (first ++ second) = toldOf id first ++ toldOf id second :=
  List.filterMap_append ..

theorem run_account {log : List (Event ⊕ (Nat × Message))}
    (run : Run (readingSystem options) (Undisturbed id) initial log state) :
    Account id state (decodedOf id (notesOf log)) (toldOf id (eventsOf log)) := by
  induction run with
  | refl => exact .unborn (by rw [life_initial]; rfl)
  | @next log state label events state' run permit step ih =>
      obtain ⟨stepped, noted⟩ := Run.step_of_annotating step
      have before := Run.of_annotating run
      have moved := run_moves False id (fun _ => False.elim) before
      obtain ⟨phase, count, _, traced⟩ := moved.inPhase
      have unborn : (state'.life id).created = false → marks id (eventsOf events) = [] := by
        intro fresh
        obtain ⟨phase', count', same, traced'⟩ := run_inPhase id (before.next permit stepped)
        rw [(traced'.silent fresh).1, marks, List.filterMap_append] at same
        exact (List.append_eq_nil_iff.mp same).2
      rw [notesOf_append, eventsOf_append, decodedOf_append, toldOf_append, noted]
      exact step_account ih traced moved.created_of_erasing unborn (run_delaysSession before) permit
        stepped

/-! ### The dispatcher left alone -/

/-- A bound on the jobs that follow from a job, itself included. -/
def Job.weight : Job → Nat
  | .signal _ _ => 6
  | .notify _ _ => 5
  | .stop => 9
  | .startHealthCheckTimer | .scheduleBindRetry => 4
  | .healthCheckTimerStarted => 3
  | .start | .cancelBindRetry | .stopHealthCheckTimer | .debounceBindRetry
  | .enqueuePeerErrorOccurred _ _ | .enqueuePeerClosed _ | .bindRetry _
  | .healthCheckTimerCall _ => 2
  | _ => 1

def weight (jobs : List Job) : Nat := (jobs.map Job.weight).sum

theorem weight_append (first second : List Job) :
    weight (first ++ second) = weight first + weight second := by
  simp [weight]

/-- What follows from a job weighs less than the job. -/
theorem perform_weight (dispatcher : Dispatcher) (job : Job) (verdict : Bool) :
    weight (perform dispatcher job verdict).2.next +
      weight (perform dispatcher job verdict).2.jobs < job.weight := by
  cases job with
  | signal slots sent =>
      cases slots with
      | accepted => cases sent <;> simp [perform, slot, acceptedSlot, weight, Job.weight]
      | healthCheck probe =>
          simp only [perform, slot, healthCheckSlot]
          split
          · cases sent <;> simp [weight, Job.weight]
          · simp [weight, Job.weight]
  | notify token notice =>
      simp only [perform]
      split
      · cases notice with
        | ready => cases verdict <;> simp [notify, weight, Job.weight]
        | _ => simp [notify, weight, Job.weight]
      · simp [weight, Job.weight]
  | healthCheckTimerCall functionId =>
      simp only [perform]
      split
      · cases dispatcher.socketPathHealthCheckTimer.function <;> simp [weight, Job.weight]
      · simp [weight, Job.weight]
  | startHealthCheckTimer =>
      simp only [perform]
      split <;> simp [weight, Job.weight]
  | debounceBindRetry =>
      simp only [perform]
      split <;> simp [weight, Job.weight]
  | bindRetry generation =>
      simp only [perform]
      split <;> simp [weight, Job.weight]
  | _ => simp [perform, ifExposed, weight, Job.weight]

/-- No job closes a peer by itself. -/
theorem perform_closes (dispatcher : Dispatcher) (job : Job) (verdict : Bool) :
    (perform dispatcher job verdict).2.posts.any (Handler.closes id) = false := by
  cases job with
  | signal slots sent =>
      cases slots with
      | accepted => cases sent <;> rfl
      | healthCheck probe =>
          simp only [perform, slot, healthCheckSlot]
          split
          · cases sent <;> rfl
          · rfl
  | notify token notice =>
      simp only [perform]
      split
      · cases notice with
        | ready => cases verdict <;> rfl
        | _ => rfl
      · rfl
  | startHealthCheckTimer =>
      simp only [perform]
      split <;> rfl
  | debounceBindRetry =>
      simp only [perform]
      split <;> rfl
  | bindRetry generation =>
      simp only [perform]
      split <;> rfl
  | healthCheckTimerCall functionId =>
      simp only [perform]
      split <;> rfl
  | _ => rfl

/-- The dispatcher alone finishes all its jobs. -/
theorem run_drains {log : List (Event ⊕ (Nat × Message))}
    (run : Run (readingSystem options) (Undisturbed id) initial log state)
    (unclosed : state.handlers.any (Handler.closes id) = false)
    (unstopped : ∀ job ∈ state.jobs, job.stops = false) :
    ∃ more state', Run (readingSystem options) (Undisturbed id) initial (log ++ more) state' ∧
      notesOf more = [] ∧ state'.jobs = [] := by
  induction same : weight state.jobs using Nat.strong_induction_on generalizing log state with
  | _ total ih =>
      cases queued : state.jobs with
      | nil => exact ⟨[], state, by rwa [List.append_nil], rfl, queued⟩
      | cons job rest =>
          have plain : job.stops = false := unstopped job (by simp [queued])
          have effect := perform_unstopped plain state.dispatcher true
          have step : (readingSystem options).step? state (.job true) =
              some (state.performed rest job true,
                (perform state.dispatcher job true).2.events.map .inl ++ [].map .inr) := by
            simp [readingSystem, System.annotating, system, Program.system, Program.step?,
              Program.jobStep?, queued, program, State.performed, decodings]
          have permit : Undisturbed id state (.job true) := by
            refine .inr (.inr ⟨unclosed, ?_⟩)
            simp [queued, plain]
          have lighter : weight (state.performed rest job true).jobs < total := by
            have less := perform_weight state.dispatcher job true
            have whole : weight state.jobs = job.weight + weight rest := by
              simp [queued, weight]
            simp only [State.performed, weight_append]
            omega
          have unclosed' : (state.performed rest job true).handlers.any (Handler.closes id) =
              false := by
            simp only [State.performed, List.any_append, unclosed, perform_closes, Bool.or_false]
          have unstopped' : ∀ later ∈ (state.performed rest job true).jobs,
              later.stops = false := by
            intro later member
            simp only [State.performed, List.mem_append] at member
            rcases member with (next | old) | new
            · exact effect.2.1 later next
            · exact unstopped later (by simp [queued, old])
            · exact effect.2.2.1 later new
          obtain ⟨more, state', run', unread, done⟩ :=
            ih _ lighter (run.next permit step) unclosed' unstopped' rfl
          refine ⟨_, state', by rwa [← List.append_assoc], ?_, done⟩
          rw [notesOf_append, notesOf_annotated, unread]
          rfl

/-- Every message that a reader decodes before the socket of a verified peer is closed is
passed on once, in the order decoded, after `peer_connected` and before `peer_closed`,
unless the server is stopped or closes the peer itself.  The dispatcher alone gets to a
state in which all of them have been passed on. -/
theorem messages_passed_on (options : CommonOptions) (id : Nat)
    {log : List (Event ⊕ (Nat × Message))} {state : State}
    (run : Run (readingSystem options) (Undisturbed id) initial log state) :
    PassedOn (decodedOf id (notesOf log)) (toldOf id (eventsOf log)) (owed id state.jobs) ∧
      ((∀ job ∈ state.jobs, job.stage? id = none) → decodedOf id (notesOf log) = [] ∨
        decodedOf id (notesOf log) = delivered (toldOf id (eventsOf log))) ∧
      (state.handlers.any (Handler.closes id) = false → (∀ job ∈ state.jobs, job.stops = false) →
        ∃ more state', Run (readingSystem options) (Undisturbed id) initial (log ++ more) state' ∧
          notesOf more = [] ∧ state'.jobs = [] ∧
          (decodedOf id (notesOf log) = [] ∨
            decodedOf id (notesOf log) = delivered (toldOf id (eventsOf (log ++ more))))) := by
  refine ⟨(run_account run).passedOn, fun idle => ?_, fun unclosed unstopped => ?_⟩
  · have passed := (run_account run).passedOn
    rw [owed_eq_nil idle] at passed
    exact passed.all_told
  · obtain ⟨more, state', run', unread, done⟩ := run_drains run unclosed unstopped
    have passed := (run_account run').passedOn
    rw [done, notesOf_append, unread, List.append_nil] at passed
    exact ⟨more, state', run', unread, done, PassedOn.all_told passed⟩

/-- A frame arrives before the peer is verified, and the remote end is closed behind it. -/
theorem messages_passed_on_remote_close :
    ∃ log state, Run (readingSystem {}) (Undisturbed 1) initial log state ∧
      decodedOf 1 (notesOf log) = [.received [7]] ∧
      toldOf 1 (eventsOf log) = [.connected, .message (.received [7]), .closed] ∧
      PassedOn (decodedOf 1 (notesOf log)) (toldOf 1 (eventsOf log)) (owed 1 state.jobs) := by
  let credentials : PeerCredentials := ⟨none, none, none⟩
  let handlers (count : Nat) : List Label := List.replicate count (.handler .succeeded)
  let jobs (count : Nat) : List Label := List.replicate count (.job true)
  let labels : List Label :=
    [.input .asyncStart] ++ jobs 2 ++ handlers 1 ++ jobs 5 ++ handlers 1 ++
      [.input (.acceptCompletes (.socket credentials))] ++ handlers 2 ++
      [.input (.peerCompletes (.accepted 1) (.read .success [0, 0, 0, 2]))] ++ handlers 2 ++
      [.input (.peerCompletes (.accepted 1) (.read .success [1, 7]))] ++ handlers 1 ++
      [.input (.peerCompletes (.accepted 1) (.read .eof []))] ++ handlers 5 ++ jobs 7
  let log : List (Event ⊕ (Nat × Message)) :=
    [.inl (.bound 1), .inl (.accepted 1 credentials), .inl (.frameRead (.accepted 1) [1, 7]),
      .inr (1, .received [7]), .inl (.verifyPeer 1 credentials true),
      .inl (.peerConnected 1 credentials), .inl (.received 1 [7]), .inl (.peerClosed 1)]
  have computed : (Run.steps? (readingSystem {}) (Undisturbed 1) initial labels).map
      (fun result => ((), result.2)) = some ((), log) := by
    decide +kernel
  have ran : ∃ state, Run (readingSystem {}) (Undisturbed 1) initial log state ∧ () = () :=
    Run.of_view computed
  obtain ⟨state, run, _⟩ := ran
  exact ⟨log, state, run, by decide, by decide, (messages_passed_on {} 1 run).1⟩

end

end UnixDomainStream.Server
