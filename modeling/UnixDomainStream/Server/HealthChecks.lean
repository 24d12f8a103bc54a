import UnixDomainStream.Peer.Readings
import UnixDomainStream.Server.Delivery

/-!
# Connections that are health checks

A `health_check` frame on a peer that is not ready yet ends the reading: the peer answers
and closes.  Nothing but its ready deadline can declare it ready afterwards.  The deadline
is not cancelled, so a connection stays internal as long as the deadline is not handled.
-/

namespace UnixDomainStream.Server

open Library

/-! ## A life without an announcement -/

namespace Lifecycle

/-- A peer that was accepted and has not been announced, with no announcement queued. -/
structure Hushed (life : Lifecycle) : Prop where
  created : life.created = true
  hidden : life.exposed = false
  unannounced : life.announcements = 0

variable {calm : Prop} {before after life : Lifecycle} {marks : List Mark}

theorem Hushed.not_head (hushed : Hushed life) {stage : Stage} {rest : List Stage}
    (head : life.stages = stage :: rest) : stage.announces = false := by
  have none := hushed.unannounced
  rw [announcements, head, List.countP_eq_zero] at none
  simpa using none stage List.mem_cons_self

/-- The stages lose some and gain none that announce. -/
theorem Hushed.stages (hushed : Hushed life) {stages : List Stage}
    (kept : ∀ stage ∈ stages, stage.announces = true → stage ∈ life.stages) {closing erasing : Bool}
    {closable isOpen : Bool} :
    Hushed { life with stages, closing, erasing, closable, isOpen } where
  created := hushed.created
  hidden := hushed.hidden
  unannounced := by
    have none := hushed.unannounced
    rw [announcements, List.countP_eq_zero] at none ⊢
    exact fun stage member announces => none stage (kept stage member announces) announces

/-- A move that does not declare the peer ready keeps it hushed. -/
theorem Hushed.move (hushed : Hushed before) (move : Move calm before marks after) :
    (marks = [] ∧ Hushed after ∧ (after.alive = true → before.alive = true)) ∨
      (after.created = true ∧ after.ready = true ∧ before.alive = true) := by
  have quiet : ∀ {life : Lifecycle}, Hushed life → life.alive = before.alive →
      (([] : List Mark) = [] ∧ Hushed life ∧ (life.alive = true → before.alive = true)) ∨
        (life.created = true ∧ life.ready = true ∧ before.alive = true) :=
    fun hushed same => .inl ⟨rfl, hushed, fun alive => same ▸ alive⟩
  have pushed : ∀ {stages more : List Stage} (_ : more.all (fun stage => !stage.announces) = true)
      (_ : ∀ stage ∈ stages, stage ∈ before.stages),
      ∀ stage ∈ stages ++ more, stage.announces = true → stage ∈ before.stages := by
    intro stages more silent old stage member announces
    rcases List.mem_append.mp member with listed | new
    · exact old stage listed
    · have := List.all_eq_true.mp silent stage new
      simp [announces] at this
  have tail : ∀ {stage : Stage} {rest : List Stage}, before.stages = stage :: rest →
      ∀ stage ∈ rest, stage ∈ before.stages := by
    intro stage rest head other member
    simp [head, member]
  cases move with
  | fade fades =>
      refine quiet ⟨fades.created.trans hushed.created, fades.exposed.trans hushed.hidden, ?_⟩
        fades.alive
      rw [announcements, fades.stages]
      exact hushed.unannounced
  | create fresh => exact absurd (hushed.created.symm.trans fresh) (by decide)
  | raise alive unready opened => exact .inr ⟨hushed.created, rfl, alive⟩
  | message alive => exact quiet (hushed.stages (pushed rfl fun _ => id)) rfl
  | error alive => exact quiet (hushed.stages (pushed rfl fun _ => id)) rfl
  | shut alive opened => exact quiet (hushed.stages (pushed rfl fun _ => id)) rfl
  | finish closing shut => exact quiet (hushed.stages (pushed rfl fun _ => id)) rfl
  | settle reported => exact quiet { hushed with } rfl
  | release closable listed => exact quiet { hushed with } rfl
  | erase erasing => exact quiet { hushed with } rfl
  | dismiss stopping => exact quiet { hushed with } rfl
  | destroy unlisted finished =>
      refine .inl ⟨rfl, ⟨hushed.created, hushed.hidden, ?_⟩, by simp⟩
      have kept : Hushed { before with
          stages := before.stages.filter fun stage => !stage.isSignal } :=
        hushed.stages fun stage member _ => List.mem_of_mem_filter member
      exact kept.unannounced
  | takeReady head => cases hushed.not_head head
  | takeMessage head delivers =>
      refine quiet (hushed.stages (pushed ?_ (tail head))) rfl
      cases delivers <;> rfl
  | takeError head =>
      refine quiet (hushed.stages fun stage member announces => ?_) rfl
      rcases List.mem_cons.mp member with rfl | member
      · cases announces
      · exact tail head stage member
  | takeClosed head =>
      refine quiet (hushed.stages fun stage member announces => ?_) rfl
      rcases List.mem_cons.mp member with rfl | member
      · cases announces
      · exact tail head stage member
  | reportError head => exact quiet (hushed.stages (pushed rfl (tail head))) rfl
  | reportClosed head => exact quiet (hushed.stages (pushed rfl (tail head))) rfl
  | discard head => cases hushed.not_head head
  | expose head => cases hushed.not_head head
  | reject head => cases hushed.not_head head
  | deliver head =>
      rw [if_neg (by simp [hushed.hidden])]
      exact quiet (hushed.stages fun stage member _ => tail head stage member) rfl
  | @peerClosed rest head =>
      have left : Hushed { before with stages := rest } := hushed.stages fun stage member _ => tail head stage member
      rw [if_neg (by simp [hushed.hidden])]
      exact quiet { left with hidden := rfl } rfl
  | hide stopping => exact quiet { hushed with hidden := rfl } rfl
  | ask asked => exact quiet { hushed with } rfl
  | stop wild => exact quiet { hushed with } rfl

/-- Declared ready, or no longer alive. -/
theorem Move.keeps_ready (move : Move calm before marks after) (created : before.created = true)
    (ready : before.alive = true → before.ready = true) :
    after.created = true ∧ (after.alive = true → after.ready = true) := by
  cases move with
  | fade fades =>
      rw [fades.created, fades.alive, fades.ready]
      exact ⟨created, ready⟩
  | create fresh => exact absurd (created.symm.trans fresh) (by decide)
  | raise alive unready opened => exact ⟨created, fun _ => rfl⟩
  | destroy unlisted finished => exact ⟨created, nofun⟩
  | _ => exact ⟨created, ready⟩

/-- A peer that lives on without being ready has not been announced. -/
theorem Hushed.moves (hushed : Hushed before) (moves : Moves calm before marks after)
    (lasting : before.alive = true → after.alive = true)
    (unready : after.alive = true → after.ready = false) : marks = [] ∧ Hushed after := by
  have kept : (marks = [] ∧ Hushed after ∧ (after.alive = true → before.alive = true)) ∨
      (after.created = true ∧ (after.alive = true → after.ready = true) ∧
        before.alive = true) := by
    clear lasting unready
    induction moves with
    | refl => exact .inl ⟨rfl, hushed, id⟩
    | next moves move ih =>
        rcases ih with ⟨rfl, hushed, alive⟩ | ⟨created, ready, alive⟩
        · rcases hushed.move move with ⟨rfl, hushed, old⟩ | ⟨created, ready, old⟩
          · exact .inl ⟨rfl, hushed, fun after => alive (old after)⟩
          · exact .inr ⟨created, fun _ => ready, alive old⟩
        · obtain ⟨created, ready⟩ := move.keeps_ready created ready
          exact .inr ⟨created, ready, alive⟩
  rcases kept with ⟨silent, hushed, _⟩ | ⟨_, ready, alive⟩
  · exact ⟨silent, hushed⟩
  · have lives := lasting alive
    exact absurd ((ready lives).symm.trans (unready lives)) (by decide)

end Lifecycle

/-! ## The reads of an accepted peer -/

/-- The handler may start a read of the peer. -/
def Handler.reads (id : Nat) : Handler → Bool
  | .peer (.accepted owner) handler => owner == id && handler.reads
  | _ => false

namespace Turn

/-- What a piece of a handler posts does not read from the peer. -/
abbrev Unread (id : Nat) (before after : Turn) : Prop :=
  Appends (fun handler => handler.reads id = false) before.posts after.posts

variable {id : Nat} {turn : Turn}

theorem Internal.unread {before after : Turn} (internal : Internal before after) (id : Nat) :
    Unread id before after := by
  refine internal.posts.mono fun handler internal => ?_
  cases handler with
  | peer ref handler => cases ref <;> first | rfl | cases internal
  | _ => rfl

theorem PeerPiece.unread {options : CommonOptions} {scope : NotificationScope}
    {handler : Handler} {start before after : Turn}
    (piece : PeerPiece options scope handler start before after)
    (own : handler.isOf (.accepted id) = false) (fresh : ¬ Accepts scope id start handler) :
    Unread id before after := by
  cases piece with
  | complete completes earned =>
      refine .map ?_ _
      intro timer _
      rfl
  | push other frame => exact .single (by simp [Handler.reads, PeerHandler.reads]) _
  | release closes listed completed =>
      exact .single (by simp [Handler.reads, PeerHandler.reads]) _
  | erase closed completed => exact .refl _
  | dismiss stopped completed => exact .map (by simp [Handler.reads, PeerHandler.reads]) _
  | send sent listed => exact .single (by simp [Handler.reads, PeerHandler.reads]) _
  | refuse sent => exact .refl _
  | @speak other spoken spoke =>
      subst spoke
      have different : other ≠ id := by simpa [Handler.isOf] using own
      unfold runPeer
      split
      · exact .refl _
      · exact .map (fun _ _ => by simp [Handler.reads, different]) _
  | create accepted current =>
      subst accepted
      have different : start.io.nextPeerId + 1 ≠ id := fun same => fresh ⟨current, same⟩
      exact .single (by simp [Handler.reads, different]) _

/-- Only the peer itself, or its acceptance, starts a read of the peer. -/
theorem run_unread (options : CommonOptions) {scope : NotificationScope} (outcome : BindOutcome)
    {handler : Handler} (own : handler.isOf (.accepted id) = false)
    (fresh : ¬ Accepts scope id turn handler) :
    Unread id turn (turn.run options scope outcome handler) := by
  refine (run_pieces options scope outcome handler turn).effect (fun _ => .refl _) .trans ?_
  intro before after piece
  rcases piece.sort with internal | piece
  · exact internal.unread id
  · exact piece.unread own fresh

end Turn

/-- No job reads from a peer. -/
theorem perform_unread (id : Nat) (dispatcher : Dispatcher) (job : Job) (verdict : Bool) :
    ∀ handler ∈ (perform dispatcher job verdict).2.posts, handler.reads id = false := by
  have session : job.isSession = true →
      ∀ handler ∈ (perform dispatcher job verdict).2.posts, handler.reads id = false := by
    intro session handler member
    have posted := (perform_session session dispatcher verdict).posts handler member
    cases handler <;> first | rfl | cases posted
  cases job with
  | signal slots sent =>
      cases slots with
      | accepted => cases sent <;> simp [perform, slot, acceptedSlot, Handler.reads]
      | healthCheck probe =>
          simp only [perform, slot, healthCheckSlot]
          split
          · cases sent <;> simp [Handler.reads]
          · simp
  | notify token notice =>
      simp only [perform]
      split
      · cases notice with
        | ready => cases verdict <;> simp [notify, Handler.reads]
        | _ => simp [notify]
      · simp
  | enqueuePeerErrorOccurred => simp [perform]
  | enqueuePeerClosed => simp [perform]
  | received => simp [perform, ifExposed]
  | requestReceived => simp [perform, ifExposed]
  | peerErrorOccurred => simp [perform, ifExposed]
  | peerClosed => simp [perform]
  | requestCallback => simp [perform]
  | _ => exact session rfl

theorem Handler.eq_of_isOf {ref : PeerRef} {handler : Handler} (own : handler.isOf ref = true) :
    ∃ called, handler = .peer ref called := by
  cases handler with
  | peer other called => exact ⟨called, by rw [beq_iff_eq.mp own]⟩
  | _ => cases own

/-- The reads of the peer that are outstanding or have their handler queued. -/
def State.readings (id : Nat) (state : State) : Nat :=
  state.handlers.countP (Handler.reads id) +
    ((state.io.connections (.accepted id)).any fun connection =>
      connection.peer.reading.isSome).toNat

section

variable {options : CommonOptions} {id : Nat} {state state' : State} {label : Label}
variable {events : List Event}

/-- The handlers of the peer itself. -/
theorem readings_runPeer {handler : PeerHandler} {rest : List Handler}
    (queued : state.handlers = .peer (.accepted id) handler :: rest) (options : CommonOptions)
    {count : Nat}
    (reads : ∀ connection, state.io.connections (.accepted id) = some connection →
      PeerTurn.Reads count { peer := connection.peer }
        (PeerTurn.run options handler { peer := connection.peer })) :
    let turn := Turn.runPeer options (.accepted id) handler { io := state.io }
    State.readings id { state with
        io := turn.io
        handlers := rest ++ turn.posts
        jobs := state.jobs ++ turn.jobs } + handler.reads.toNat ≤
      state.readings id + count := by
  have head : (Handler.peer (.accepted id) handler).reads id = handler.reads := by
    simp [Handler.reads]
  have popped : state.handlers.countP (Handler.reads id) =
      rest.countP (Handler.reads id) + handler.reads.toNat := by
    rw [queued, List.countP_cons, head]
    cases handler.reads <;> rfl
  unfold Turn.runPeer
  cases alive : state.io.connections (.accepted id) with
  | none =>
      simp only [State.readings, popped, alive, List.append_nil]
      omega
  | some connection =>
      have bound := reads connection alive
      have posted : ∀ handlers : List PeerHandler,
          (handlers.map (Handler.peer (.accepted id))).countP (Handler.reads id) =
            handlers.countP PeerHandler.reads := by
        intro handlers
        rw [List.countP_map]
        congr 1
        funext other
        simp [Handler.reads]
      simp only [PeerTurn.Reads, PeerTurn.readings, List.countP_nil] at bound
      simp only [State.readings, popped, alive, Function.update_self, List.nil_append,
        List.countP_append, posted, Option.any_some]
      omega

/-- A handler that is neither the peer's own nor its acceptance. -/
theorem readings_spared {handler : Handler} {rest : List Handler}
    (queued : state.handlers = handler :: rest) (outcome : BindOutcome)
    (own : handler.isOf (.accepted id) = false)
    (fresh : ¬ Turn.Accepts state.dispatcher.notificationScope id { io := state.io } handler) :
    let turn := Turn.run options state.dispatcher.notificationScope outcome handler
      { io := state.io }
    State.readings id { state with
        io := turn.io
        handlers := rest ++ turn.posts
        jobs := state.jobs ++ turn.jobs } ≤ state.readings id := by
  intro turn
  have spares := Turn.run_spares options outcome own fresh
  have unread : (turn.posts).countP (Handler.reads id) = 0 :=
    (Turn.run_unread options outcome own fresh).countP_eq fun _ unread => unread
  have popped : rest.countP (Handler.reads id) ≤ state.handlers.countP (Handler.reads id) := by
    rw [queued]
    exact (List.sublist_cons_self handler rest).countP_le
  have kept : turn.io.connections (.accepted id) = state.io.connections (.accepted id) :=
    spares.connection
  simp only [State.readings, kept, List.countP_append, unread]
  omega

/-- The acceptance of the peer posts its `start`. -/
theorem readings_fresh {handler : Handler} {rest : List Handler}
    (queued : state.handlers = handler :: rest) (outcome : BindOutcome)
    (fresh : Turn.Accepts state.dispatcher.notificationScope id { io := state.io } handler) :
    let turn := Turn.run options state.dispatcher.notificationScope outcome handler
      { io := state.io }
    State.readings id { state with
        io := turn.io
        handlers := rest ++ turn.posts
        jobs := state.jobs ++ turn.jobs } ≤ state.readings id + 1 ∧
      turn.io.nextPeerId = id := by
  obtain ⟨accept, credentials, rfl⟩ :
      ∃ accept credentials, handler = .accept accept (.socket credentials) := by
    cases handler with
    | accept accept result =>
        cases result with
        | error => exact fresh.elim
        | socket credentials => exact ⟨accept, credentials, rfl⟩
    | _ => exact fresh.elim
  obtain ⟨current, rfl⟩ := fresh
  intro turn
  have popped : rest.countP (Handler.reads (state.io.nextPeerId + 1)) ≤
      state.handlers.countP (Handler.reads (state.io.nextPeerId + 1)) := by
    rw [queued]
    exact (List.sublist_cons_self _ rest).countP_le
  simp only [turn, Turn.run, Turn.onAccept, Turn.handleAcceptedSocket, current, Bool.not_true,
    Bool.false_eq_true, if_false]
  cases bound : state.io.acceptor with
  | none =>
      refine ⟨?_, by simp [Turn.accept, Turn.post, Turn.emit]⟩
      simp [State.readings, Turn.accept, Turn.post, Turn.emit, Handler.reads,
        PeerHandler.reads]
      omega
  | some attempt =>
      refine ⟨?_, by simp [Turn.accept, Turn.post, Turn.emit, current]⟩
      simp [State.readings, Turn.accept, Turn.post, Turn.emit, current, Handler.reads,
        PeerHandler.reads]
      omega

theorem step_readings (step : (system options).step? state label = some (state', events)) :
    (state'.readings id ≤ state.readings id ∧
      (id ≤ state'.io.nextPeerId ↔ id ≤ state.io.nextPeerId)) ∨
    (state.io.nextPeerId < id ∧ id ≤ state'.io.nextPeerId ∧
      state'.readings id ≤ state.readings id + 1) := by
  cases Program.step_of_eq_some step with
  | @handler handler rest queued outcome =>
      cases own : handler.isOf (.accepted id) with
      | true =>
          obtain ⟨called, rfl⟩ := Handler.eq_of_isOf own
          have counted := readings_runPeer queued options fun connection _ =>
            PeerTurn.run_reads options called { peer := connection.peer }
          refine .inl ⟨Nat.le_of_add_le_add_right counted, ?_⟩
          have kept : (Turn.runPeer options (.accepted id) called
              { io := state.io }).io.nextPeerId = state.io.nextPeerId := by
            unfold Turn.runPeer
            split <;> rfl
          exact iff_of_eq (congrArg (id ≤ ·) kept)
      | false =>
          by_cases fresh : Turn.Accepts state.dispatcher.notificationScope id { io := state.io }
            handler
          · obtain ⟨counted, born⟩ := readings_fresh queued outcome fresh
            have unborn : state.io.nextPeerId < id := by
              cases handler with
              | accept accept result =>
                  cases result with
                  | error => exact fresh.elim
                  | socket credentials =>
                      have next : state.io.nextPeerId + 1 = id := fresh.2
                      omega
              | _ => exact fresh.elim
            exact .inr ⟨unborn, born.ge, counted⟩
          · exact .inl ⟨readings_spared queued outcome own fresh,
              (Turn.run_spares options outcome own fresh).born⟩
  | @job job rest queued verdict =>
      have posted : (perform state.dispatcher job verdict).2.posts.countP (Handler.reads id) = 0 :=
        List.countP_eq_zero.mpr fun handler member => by
          simp [perform_unread id state.dispatcher job verdict handler member]
      refine .inl ⟨?_, .rfl⟩
      simp [State.readings, program, posted]
  | delayed idle due => exact .inl ⟨Nat.le_refl _, .rfl⟩
  | input accepted =>
      have posted : ∀ {handler : Handler} {io : Io}, handler.reads id = false →
          io.connections (.accepted id) = state.io.connections (.accepted id) →
          State.readings id (post handler { state with io }) = state.readings id := by
        intro handler io unread same
        simp [State.readings, post, unread, same]
      cases accepts_of_eq_some accepted with
      | asyncStart => exact .inl ⟨Nat.le_refl _, .rfl⟩
      | asyncStop => exact .inl ⟨Nat.le_refl _, .rfl⟩
      | asyncSend owner data => exact .inl ⟨(posted rfl rfl).le, .rfl⟩
      | asyncRespond owner requestId data => exact .inl ⟨(posted rfl rfl).le, .rfl⟩
      | asyncRequest call owner data => exact .inl ⟨(posted rfl rfl).le, .rfl⟩
      | asyncClosePeer owner => exact .inl ⟨(posted rfl rfl).le, .rfl⟩
      | acceptCompletes result outstanding => exact .inl ⟨(posted rfl rfl).le, .rfl⟩
      | @peerCompletes ref connection completion peer handler alive completes =>
          refine .inl ⟨?_, .rfl⟩
          by_cases own : ref = .accepted id
          · subst own
            have same := Peer.complete?_reads completes
            have single : [Handler.peer (.accepted id) handler].countP (Handler.reads id) =
                handler.reads.toNat := by
              cases reads : handler.reads <;> simp [Handler.reads, reads]
            simp only [State.readings, post, List.countP_append, single, alive,
              Function.update_self, Option.any_some]
            omega
          · refine (posted ?_ (Function.update_of_ne (Ne.symm own) _ _)).le
            cases ref with
            | probe timeout => rfl
            | accepted other =>
                have different : other ≠ id := fun same => own (by rw [same])
                simp [Handler.reads, different]
      | requestExpires expires => exact .inl ⟨(posted rfl rfl).le, .rfl⟩
      | healthCheckExpires outstanding => exact .inl ⟨(posted rfl rfl).le, .rfl⟩
      | healthCheckConnects errorCode outstanding => exact .inl ⟨(posted rfl rfl).le, .rfl⟩
      | @destroy ref connection alive released =>
          refine .inl ⟨?_, .rfl⟩
          by_cases own : ref = .accepted id
          · subst own
            simp [State.readings]
          · simp [State.readings, Function.update_of_ne (Ne.symm own)]

/-- A peer has one read at most, and none before it is accepted. -/
structure State.ReadsOnce (id : Nat) (state : State) : Prop where
  once : state.readings id ≤ 1
  unborn : state.io.nextPeerId < id → state.readings id = 0

theorem step_readsOnce (reads : state.ReadsOnce id)
    (step : (system options).step? state label = some (state', events)) : state'.ReadsOnce id := by
  rcases @step_readings options id _ _ _ _ step with ⟨fewer, born⟩ | ⟨unborn, born, more⟩
  · refine ⟨fewer.trans reads.once, fun unborn => ?_⟩
    have none := reads.unborn (by omega)
    omega
  · have none := reads.unborn unborn
    exact ⟨by omega, fun unborn => by omega⟩

theorem run_readsOnce {permitted : State → Label → Prop} {log : List Event}
    (run : Run (system options) permitted initial log state) (id : Nat) : state.ReadsOnce id :=
  run.invariant_state ⟨Nat.zero_le _, fun _ => rfl⟩ fun reads _ step => step_readsOnce reads step

/-! ## After the classification -/

/-- The handler is the ready deadline of the peer, which has expired. -/
def Handler.declaresReady (id : Nat) : Handler → Bool
  | .peer (.accepted owner) (.timer .readyDeadline _ .success) => owner == id
  | _ => false

/-- The step does not handle an expired ready deadline of the peer. -/
def Undeclared (id : Nat) (state : State) : Label → Prop
  | .handler _ => state.handlers.head?.any (Handler.declaresReady id) = false
  | _ => True

/-- The accepted peer is not ready, if it is alive. -/
def State.Unready (id : Nat) (state : State) : Prop :=
  ∀ connection, state.io.connections (.accepted id) = some connection →
    connection.peer.ready = false

/-- A connection classified as a health check. -/
structure Classified (id : Nat) (log : List Event) (state : State) : Prop where
  silent : marks id log = [.accepted]
  hushed : (state.life id).Hushed
  unready : state.Unready id
  unread : state.readings id = 0

theorem life_unready (unready : state.Unready id) (alive : (state.life id).alive = true) :
    (state.life id).ready = false := by
  obtain ⟨connection, alive⟩ := Option.isSome_iff_exists.mp alive
  simp [State.life, alive, unready connection alive]

/-- Of the handlers that read nothing, only the ready deadline declares the peer ready. -/
theorem raises_eq_false {handler : PeerHandler} (unread : handler.reads = false)
    (undeclared : (Handler.peer (.accepted id) handler).declaresReady id = false) (peer : Peer) :
    PeerTurn.raises peer handler = false := by
  cases handler with
  | readBody => cases unread
  | timer name wait errorCode =>
      cases name with
      | readyDeadline =>
          cases errorCode <;> first | rfl | simp [Handler.declaresReady] at undeclared
      | _ => rfl
  | _ => rfl

/-- The connection of an accepted peer after a handler that neither accepts it nor
declares it ready. -/
theorem unready_handled {handler : Handler} (unready : state.Unready id) (outcome : BindOutcome)
    (fresh : ¬ Turn.Accepts state.dispatcher.notificationScope id { io := state.io } handler)
    (unraised : ∀ called connection, handler = .peer (.accepted id) called →
      state.io.connections (.accepted id) = some connection →
        PeerTurn.raises connection.peer called = false) :
    let turn := Turn.run options state.dispatcher.notificationScope outcome handler
      { io := state.io }
    (∀ connection, turn.io.connections (.accepted id) = some connection →
      connection.peer.ready = false) ∧
    ((state.io.connections (.accepted id)).isSome →
      (turn.io.connections (.accepted id)).isSome) := by
  intro turn
  cases own : handler.isOf (.accepted id) with
  | false =>
      have kept : turn.io.connections (.accepted id) = state.io.connections (.accepted id) :=
        (Turn.run_spares options outcome own fresh).connection
      rw [kept]
      exact ⟨unready, fun alive => alive⟩
  | true =>
      obtain ⟨called, rfl⟩ := Handler.eq_of_isOf own
      simp only [turn, Turn.run, Turn.runPeer]
      cases alive : state.io.connections (.accepted id) with
      | none => simp [alive]
      | some connection =>
          have raised := unraised called connection rfl alive
          have ready := (PeerTurn.run_shape options called connection.peer).ready
          rw [unready connection alive, raised] at ready
          simpa using ready

theorem not_accepts (created : (state.life id).created = true) (handler : Handler) :
    ¬ Turn.Accepts state.dispatcher.notificationScope id { io := state.io } handler := by
  have numbered : 0 < id ∧ id ≤ state.io.nextPeerId := of_decide_eq_true created
  cases handler with
  | accept accept result =>
      cases result with
      | error errorCode => exact False.elim
      | socket credentials =>
          rintro ⟨_, fresh⟩
          have fresh : state.io.nextPeerId + 1 = id := fresh
          omega
  | _ => exact False.elim

/-- The step leaves a peer that was not announced unready and without a read. -/
theorem classified_of_moves {log : List Event} (silent : marks id log = [.accepted])
    (hushed : (state.life id).Hushed)
    (moves : Lifecycle.Moves False (state.life id) (marks id events) (state'.life id))
    (unready : state'.Unready id)
    (lasting : (state.io.connections (.accepted id)).isSome →
      (state'.io.connections (.accepted id)).isSome)
    (unread : state'.readings id = 0) : Classified id (log ++ events) state' := by
  obtain ⟨quiet, hushed⟩ := hushed.moves moves lasting (life_unready unready)
  refine ⟨?_, hushed, unready, unread⟩
  rw [marks, List.filterMap_append]
  exact (congrArg₂ (· ++ ·) silent quiet).trans (List.append_nil _)

/-- A classified connection stays so until its ready deadline is handled. -/
theorem step_classified {log : List Event} (classified : Classified id log state)
    {permitted : State → Label → Prop}
    (run : Run (system options) permitted initial log state)
    (undeclared : Undeclared id state label)
    (step : (system options).step? state label = some (state', events)) :
    Classified id (log ++ events) state' := by
  obtain ⟨phase, count, _, traced⟩ := run_inPhase id run
  have moves := @step_moves False id phase options _ _ _ _ traced (run_delaysSession run)
    (fun calm => calm.elim) step
  have created := classified.hushed.created
  have numbered : 0 < id ∧ id ≤ state.io.nextPeerId := of_decide_eq_true created
  have unread : state'.readings id = 0 := by
    rcases @step_readings options id _ _ _ _ step with ⟨fewer, _⟩ | ⟨unborn, _⟩
    · have none := classified.unread
      omega
    · omega
  have conclude : state'.Unready id →
      ((state.io.connections (.accepted id)).isSome →
        (state'.io.connections (.accepted id)).isSome) →
      Classified id (log ++ events) state' := fun unready lasting =>
    classified_of_moves classified.silent classified.hushed moves unready lasting unread
  cases Program.step_of_eq_some step with
  | @handler handler rest queued outcome =>
      have kept := @unready_handled options id state handler classified.unready outcome
        (not_accepts created handler) fun called connection own alive => by
          subst own
          have uncounted := classified.unread
          rw [State.readings, queued, List.countP_cons] at uncounted
          have unread : called.reads = false := by
            cases reads : called.reads with
            | false => rfl
            | true => simp [Handler.reads, reads] at uncounted
          have undeclared : (Handler.peer (.accepted id) called).declaresReady id = false := by
            simpa [Undeclared, queued] using undeclared
          exact raises_eq_false unread undeclared connection.peer
      exact conclude kept.1 kept.2
  | job queued verdict => exact conclude classified.unready fun alive => alive
  | delayed idle due => exact conclude classified.unready fun alive => alive
  | input accepted =>
      cases accepts_of_eq_some accepted with
      | @peerCompletes ref connection completion peer handler alive completes =>
          have ready := (Peer.complete?_keeps completes).2.1
          by_cases own : ref = .accepted id
          · subst own
            refine conclude ?_ fun _ => by simp [post]
            intro after alive'
            have same : after.peer = peer := by
              have updated := (Function.update_self _ _ _).symm.trans alive'
              rw [← Option.some.inj updated]
            rw [same, ready]
            exact classified.unready connection alive
          · have kept := Function.update_of_ne (Ne.symm own) (some { connection with peer })
              state.io.connections
            refine conclude (fun after alive' => ?_) fun alive => ?_
            · exact classified.unready after (kept.symm.trans alive')
            · exact (congrArg Option.isSome kept).trans alive
      | @destroy ref connection alive released =>
          by_cases own : ref = .accepted id
          · subst own
            have silent : marks id (log ++ []) = [.accepted] := by
              rw [List.append_nil]
              exact classified.silent
            refine ⟨silent, ?_, fun after alive' => ?_, unread⟩
            · refine ⟨created, classified.hushed.hidden, ?_⟩
              have none := classified.hushed.unannounced
              have fewer : ((state.jobs.filter fun job => !job.isOf (.accepted id)).filterMap
                  (Job.stage? id)).Sublist (state.jobs.filterMap (Job.stage? id)) :=
                List.filter_sublist.filterMap _
              exact Nat.le_zero.mp (none ▸ fewer.countP_le)
            · simp at alive'
          · have kept := Function.update_of_ne (Ne.symm own) (none : Option (Connection ref))
              state.io.connections
            refine conclude (fun after alive' => ?_) fun alive => ?_
            · exact classified.unready after (kept.symm.trans alive')
            · exact (congrArg Option.isSome kept).trans alive
      | _ => exact conclude classified.unready fun alive => alive

/-- The next handler takes a `health_check` frame on an accepted peer that is not ready. -/
def State.classifies (id : Nat) (state : State) : Bool :=
  match state.handlers.head?, state.io.connections (.accepted id) with
  | some (.peer (.accepted owner) (.readBody .success body)), some connection =>
      owner == id && isHealthCheck body && body.length == connection.peer.readBody.length &&
        !connection.peer.ready
  | _, _ => false

/-- Nothing of the connection shows outside: its peer has not emitted `ready`, and nobody
was told about it. -/
structure StaysInternal (id : Nat) (log : List Event) (state : State) : Prop where
  unready : state.Unready id
  unsignalled : ∀ slots, slots.ref = .accepted id → .signal slots .ready ∉ state.jobs
  unverified : ∀ credentials verdict, .verifyPeer id credentials verdict ∉ log
  unconnected : ∀ credentials, .peerConnected id credentials ∉ log
  unclosed : .peerClosed id ∉ log

theorem Classified.staysInternal {log : List Event} (classified : Classified id log state) :
    StaysInternal id log state := by
  have unmarked : ∀ {event : Event} {mark : Mark}, event.mark? id = some mark →
      mark ≠ .accepted → event ∉ log := by
    intro event mark marked other member
    have listed : mark ∈ marks id log := List.mem_filterMap.mpr ⟨event, member, marked⟩
    rw [classified.silent] at listed
    exact other (List.mem_singleton.mp listed)
  refine ⟨classified.unready, ?_, ?_, ?_, ?_⟩
  · intro slots own queued
    cases slots with
    | healthCheck => cases own
    | accepted owner credentials token =>
        cases own
        have none := classified.hushed.unannounced
        have listed : Stage.ready ∈ (state.life id).stages :=
          List.mem_filterMap.mpr ⟨_, queued, by simp [Job.stage?, stageOf]⟩
        rw [Lifecycle.announcements, List.countP_eq_zero] at none
        exact none _ listed rfl
  · exact fun credentials verdict => @unmarked _ (.verified verdict) (by simp [Event.mark?]) (by simp)
  · exact fun credentials => @unmarked _ .connected (by simp [Event.mark?]) (by simp)
  · exact @unmarked _ .closed (by simp [Event.mark?]) (by simp)

/-- The frame that classifies the connection. -/
theorem classified_of_classifies {log : List Event} {outcome : BindOutcome}
    {permitted : State → Label → Prop} (run : Run (system options) permitted initial log state)
    (classifies : state.classifies id = true)
    (step : (system options).step? state (.handler outcome) = some (state', events)) :
    Classified id (log ++ events) state' := by
  obtain ⟨body, rest, connection, queued, alive, check, full, unready⟩ :
      ∃ body rest connection,
        state.handlers = .peer (.accepted id) (.readBody .success body) :: rest ∧
        state.io.connections (.accepted id) = some connection ∧ isHealthCheck body = true ∧
        body.length = connection.peer.readBody.length ∧ connection.peer.ready = false := by
    unfold State.classifies at classifies
    split at classifies
    case h_1 owner body connection head alive =>
      simp only [Bool.and_eq_true, beq_iff_eq, Bool.not_eq_true'] at classifies
      obtain ⟨⟨⟨rfl, check⟩, full⟩, unready⟩ := classifies
      obtain ⟨rest, queued⟩ := List.head?_eq_some_iff.mp head
      exact ⟨body, rest, connection, queued, alive, check, full, unready⟩
    · cases classifies
  obtain ⟨phase, count, same, traced⟩ := run_inPhase id run
  have moves := @step_moves False id phase options _ _ _ _ traced (run_delaysSession run)
    (fun calm => calm.elim) step
  have living : (state.life id).alive = true := by simp [State.life, alive]
  have created := traced.created living
  have idle : (state.life id).ready = false := by simp [State.life, alive, unready]
  have announced := traced.announced
  rw [idle, Bool.toNat_false] at announced
  obtain rfl : phase = .accepted := by
    have born := traced.born created
    cases phase <;> simp_all [Lifecycle.Phase.verified]
  have hushed : (state.life id).Hushed := by
    refine ⟨created, ?_, by omega⟩
    cases exposed : (state.life id).exposed with
    | false => rfl
    | true => cases traced.exposed exposed
  have idly : state.Unready id := fun other alive' =>
    Option.some.inj (alive.symm.trans alive') ▸ unready
  have unraised : PeerTurn.raises connection.peer (.readBody .success body) = false := by
    have type : body.head?.bind Protocol.MessageType.ofByte? = some .healthCheck := by
      simpa [isHealthCheck] using check
    simp [PeerTurn.raises, type]
  cases Program.step_of_eq_some step with
  | @handler handler others queued' outcome =>
      obtain ⟨rfl, rfl⟩ := List.cons.inj (queued.symm.trans queued')
      have counted := readings_runPeer queued options fun other alive' => by
        obtain rfl := Option.some.inj (alive.symm.trans alive')
        exact PeerTurn.run_healthCheck_reads options check full
      have once := (run_readsOnce run id).once
      have kept := @unready_handled options id state
        (.peer (.accepted id) (.readBody .success body)) idly outcome (not_accepts created _)
        fun called other own alive' => by
          cases own
          obtain rfl := Option.some.inj (alive.symm.trans alive')
          exact unraised
      refine classified_of_moves same hushed moves kept.1 kept.2 ?_
      exact Nat.le_zero.mp (Nat.le_of_add_le_add_right (counted.trans once))

end

instance (id : Nat) (state : State) (label : Label) : Decidable (Undeclared id state label) :=
  match label with
  | .handler _ =>
      inferInstanceAs (Decidable (state.handlers.head?.any (Handler.declaresReady id) = false))
  | .job _ => .isTrue trivial
  | .delayed _ => .isTrue trivial
  | .input _ => .isTrue trivial

/-- A connection classified as a health check stays internal, whatever happens to it and
around it, as long as its ready deadline is not handled after it has expired. -/
theorem health_check_stays_internal (options : CommonOptions) {id : Nat}
    {log events more : List Event} {before classified state : State} {outcome : BindOutcome}
    (run : Run (system options) (fun _ _ => True) initial log before)
    (classifies : before.classifies id = true)
    (step : (system options).step? before (.handler outcome) = some (classified, events))
    (continued : Run (system options) (Undeclared id) classified more state) :
    StaysInternal id (log ++ events ++ more) state := by
  have first := classified_of_classifies run classifies step
  have started : Run (system options) (fun _ _ => True) initial (log ++ events) classified :=
    run.next trivial step
  have kept : Classified id (log ++ events ++ more) state := by
    induction continued with
    | refl =>
        rw [List.append_nil]
        exact first
    | next continued undeclared stepped ih =>
        rw [← List.append_assoc]
        exact step_classified ih (started.append (continued.mono fun _ => trivial)) undeclared
          stepped
  exact kept.staysInternal

/-- A classification and a run after it, computed. -/
theorem classification_of_view {permitted : State → Label → Prop}
    [∀ state label, Decidable (permitted state label)] {labels continuation : List Label}
    {log events more : List Event}
    (computed : (Run.steps? (system {}) (fun _ _ => True) initial labels).map (fun result =>
      ((result.1.classifies 1, ((system {}).step? result.1 (.handler .succeeded)).map fun next =>
        (next.2, (Run.steps? (system {}) permitted next.1 continuation).map Prod.snd)),
        result.2)) = some ((true, some (events, some more)), log)) :
    ∃ before classified state, Run (system {}) (fun _ _ => True) initial log before ∧
      before.classifies 1 = true ∧
      (system {}).step? before (.handler .succeeded) = some (classified, events) ∧
      Run (system {}) permitted classified more state := by
  let view (state : State) := (state.classifies 1,
    ((system {}).step? state (.handler .succeeded)).map fun next =>
      (next.2, (Run.steps? (system {}) permitted next.1 continuation).map Prod.snd))
  have computed : (Run.steps? (system {}) (fun _ _ => True) initial labels).map
      (fun result => (view result.1, result.2)) =
        some ((true, some (events, some more)), log) := computed
  obtain ⟨before, run, viewed⟩ := Run.of_view computed
  obtain ⟨classifies, after⟩ := Prod.mk.inj viewed
  obtain ⟨⟨classified, emitted⟩, stepped, same⟩ := Option.map_eq_some_iff.mp after
  obtain ⟨rfl, continued⟩ := Prod.mk.inj same
  obtain ⟨⟨state, told⟩, ran, rfl⟩ := Option.map_eq_some_iff.mp continued
  exact ⟨before, classified, state, run, classifies, stepped, Run.of_steps? ran⟩

/-- The labels of a run up to the `health_check` frame on the first connection. -/
def toHealthCheck : List Label :=
  let jobs (count : Nat) : List Label := List.replicate count (.job true)
  let handlers (count : Nat) : List Label := List.replicate count (.handler .succeeded)
  [.input .asyncStart] ++ jobs 2 ++ handlers 1 ++ jobs 5 ++ handlers 1 ++
    [.input (.acceptCompletes (.socket ⟨none, none, none⟩))] ++ handlers 2 ++
    [.input (.peerCompletes (.accepted 1) (.read .success [0, 0, 0, 1]))] ++ handlers 1 ++
    [.input (.peerCompletes (.accepted 1) (.read .success [2]))] ++ handlers 1

set_option synthInstance.maxSize 400 in
/-- The response is written, and the peer closes. -/
theorem health_check_stays_internal_answered :
    ∃ log events more before classified state,
      Run (system {}) (fun _ _ => True) initial log before ∧ before.classifies 1 = true ∧
      (system {}).step? before (.handler .succeeded) = some (classified, events) ∧
      Run (system {}) (Undeclared 1) classified more state ∧
      StaysInternal 1 (log ++ events ++ more) state := by
  let continuation : List Label :=
    [.handler .succeeded, .input (.peerCompletes (.accepted 1) (.write .success)),
      .handler .succeeded, .handler .succeeded, .handler .succeeded, .job true, .job true,
      .job true]
  have computed : (Run.steps? (system {}) (fun _ _ => True) initial toHealthCheck).map
      (fun result => ((result.1.classifies 1,
        ((system {}).step? result.1 (.handler .succeeded)).map fun next =>
          (next.2, (Run.steps? (system {}) (Undeclared 1) next.1 continuation).map Prod.snd)),
        result.2)) =
      some ((true, some ([.frameRead (.accepted 1) [2]], some [])),
        [.bound 1, .accepted 1 ⟨none, none, none⟩]) := by
    decide +kernel
  obtain ⟨before, classified, state, run, classifies, step, continued⟩ :=
    classification_of_view computed
  exact ⟨_, _, _, before, classified, state, run, classifies, step, continued,
    health_check_stays_internal {} run classifies step continued⟩

set_option synthInstance.maxSize 400 in
/-- The ready deadline expires while the response is being written: the connection is
verified, announced and reported closed like any other. -/
theorem health_check_surfaces :
    (∃ log events more before classified state,
      Run (system {}) (fun _ _ => True) initial log before ∧ before.classifies 1 = true ∧
      (system {}).step? before (.handler .succeeded) = some (classified, events) ∧
      Run (system {}) (fun _ _ => True) classified more state ∧
      more = [.verifyPeer 1 ⟨none, none, none⟩ true, .peerConnected 1 ⟨none, none, none⟩,
        .peerClosed 1]) ∧
    ¬∀ (options : CommonOptions) (id : Nat) (log events more : List Event)
      (before classified state : State) (outcome : BindOutcome),
      Run (system options) (fun _ _ => True) initial log before → before.classifies id = true →
      (system options).step? before (.handler outcome) = some (classified, events) →
      Run (system options) (fun _ _ => True) classified more state →
      StaysInternal id (log ++ events ++ more) state := by
  let continuation : List Label :=
    [.input (.peerCompletes (.accepted 1) (.timer .readyDeadline)), .handler .succeeded,
      .handler .succeeded, .handler .succeeded, .job true, .job true,
      .input (.peerCompletes (.accepted 1) (.write .success)), .handler .succeeded, .job true,
      .job true, .job true]
  have computed : (Run.steps? (system {}) (fun _ _ => True) initial toHealthCheck).map
      (fun result => ((result.1.classifies 1,
        ((system {}).step? result.1 (.handler .succeeded)).map fun next =>
          (next.2, (Run.steps? (system {}) (fun _ _ => True) next.1 continuation).map Prod.snd)),
        result.2)) =
      some ((true, some ([.frameRead (.accepted 1) [2]], some
        [.verifyPeer 1 ⟨none, none, none⟩ true, .peerConnected 1 ⟨none, none, none⟩,
          .peerClosed 1])), [.bound 1, .accepted 1 ⟨none, none, none⟩]) := by
    decide +kernel
  obtain ⟨before, classified, state, run, classifies, step, continued⟩ :=
    classification_of_view computed
  refine ⟨⟨_, _, _, before, classified, state, run, classifies, step, continued, rfl⟩, ?_⟩
  intro stays
  have quiet := stays {} 1 _ _ _ before classified state _ run classifies step continued
  exact quiet.unclosed (by simp)

end UnixDomainStream.Server
