import UnixDomainStream.Client.Pacing

/-!
# The reports of a connection, from the first to the last

What a connection has reported is in line: delivered, on its way as a notification, posted
by a slot, or signalled by the peer.  While the client holds the connection and its token
is current, the line is `connected`, a mix of messages and errors, and `closed` when the
socket has been shut; a message that has been decoded is in it.  The line is cut where
`close_peer` drops the connection, and delivery stops where a call makes the token stale.
-/

namespace UnixDomainStream.Client

open Library

/-! ## What an observer notes -/

/-- What the reports of a connection are compared with. -/
inductive Note where
  /-- The reader decodes a message while its socket is open. -/
  | decoded (attempt : Nat) (message : Message)
  /-- `close_peer` drops the connection. -/
  | discarded (attempt : Nat)
  /-- `stop()` or `invalidate_connection()` ends what has been begun until now. -/
  | ended (last : Nat)
  deriving DecidableEq, Repr

/-- What a handler is about to decode, and the connection that it is about to drop. -/
def Handler.note (options : CommonOptions) (io : Io) : Handler → List Note
  | .peer attempt handler =>
      match io.connections attempt with
      | none => []
      | some connection =>
          if connection.peer.isOpen then
            (connection.peer.decoded? options handler).toList.map (.decoded attempt)
          else []
  | .requestTimer timer =>
      if (io.requestManager.onTimer timer).2.isSome && options.invalidateConnectionOnRequestError
      then io.peer.toList.map .discarded
      else []
  | .stop => io.peer.toList.map .discarded
  | .invalidateConnection _ => io.peer.toList.map .discarded
  | _ => []

def note (options : CommonOptions) (state : State) : Label → List Note
  | .handler _ => (state.handlers.head?.map (Handler.note options state.io)).getD []
  | .job _ => if state.jobs.head?.any Job.isCall then [.ended state.io.nextAttempt] else []
  | _ => []

/-- The client, with what is noted of its connections. -/
def tracedSystem (options : CommonOptions) : System State Label (Event ⊕ Note) :=
  (system options).annotating (note options)

def Note.decoded? (attempt : Nat) : Note → Option Message
  | .decoded other message => if other = attempt then some message else none
  | _ => none

/-- The messages that have been decoded for the attempt. -/
def decodedOf (attempt : Nat) (notes : List Note) : List Message :=
  notes.filterMap (Note.decoded? attempt)

section

variable {attempt : Nat} {options : CommonOptions} {io : Io} {handler : Handler}

@[simp]
theorem decodedOf_append (first second : List Note) :
    decodedOf attempt (first ++ second) = decodedOf attempt first ++ decodedOf attempt second :=
  List.filterMap_append ..

@[simp]
theorem decodedOf_nil : decodedOf attempt [] = [] := rfl

theorem decodedOf_discarded (peer : Option Nat) :
    decodedOf attempt (peer.toList.map .discarded) = [] := by
  cases peer <;> rfl

/-- The handlers that decode nothing for the attempt. -/
theorem decodedOf_aside
    (unspoken : ∀ spoken, handler = .peer attempt spoken → io.connections attempt = none) :
    decodedOf attempt (handler.note options io) = [] := by
  cases handler with
  | peer other spoken =>
      simp only [Handler.note]
      split
      · rfl
      case h_2 connection alive =>
        have other' : other ≠ attempt := by
          rintro rfl
          simp [unspoken spoken rfl] at alive
        split
        · refine List.filterMap_eq_nil_iff.mpr fun noted listed => ?_
          obtain ⟨_, _, rfl⟩ := List.mem_map.mp listed
          simp [Note.decoded?, other']
        · rfl
  | requestTimer timer =>
      simp only [Handler.note]
      split
      · exact decodedOf_discarded _
      · rfl
  | stop => exact decodedOf_discarded _
  | invalidateConnection token => exact decodedOf_discarded _
  | _ => rfl

theorem decodedOf_spoke {spoken : PeerHandler} {connection : Connection}
    (alive : io.connections attempt = some connection) :
    decodedOf attempt ((Handler.peer attempt spoken).note options io) =
      if connection.peer.isOpen then (connection.peer.decoded? options spoken).toList else [] := by
  simp only [Handler.note, alive]
  split
  · cases connection.peer.decoded? options spoken <;> simp [decodedOf, Note.decoded?]
  · rfl

end

/-! ## The line of reports -/

/-- The reports between `connected` and `closed`. -/
structure Mixed (mix : List Report) : Prop where
  unheralded : .connected ∉ mix
  unclosed : .closed ∉ mix

def contents (reports : List Report) : List Message := reports.filterMap Report.message?

@[simp]
theorem contents_append (first second : List Report) :
    contents (first ++ second) = contents first ++ contents second :=
  List.filterMap_append ..

@[simp]
theorem contents_connected (rest : List Report) : contents (.connected :: rest) = contents rest :=
  rfl

@[simp]
theorem contents_closed : contents [.closed] = [] := rfl

/-- The reports of an open connection, or of a shut one with what came too late. -/
structure Line (decoded : List Message) (opened : Bool) (line mix tail : List Report) : Prop where
  line : line = .connected :: mix ++ tail
  mixed : Mixed mix
  content : contents mix = decoded
  tail : if opened then tail = [] else ∃ late, tail = .closed :: late

/-- A beginning of the reports of a connection. -/
def Begun (decoded : List Message) (told : List Report) : Prop :=
  ∃ mix, told <+: .connected :: mix ++ [.closed] ∧ Mixed mix ∧ contents told <+: decoded

/-- All reports of a connection. -/
def Finished (decoded : List Message) (told : List Report) : Prop :=
  ∃ mix, told = .connected :: mix ++ [.closed] ∧ Mixed mix ∧ contents mix = decoded

section

variable {decoded more : List Message} {done rest told line mix tail : List Report}

theorem Mixed.mono {part : List Report} (mixed : Mixed mix) (less : part ⊆ mix) : Mixed part :=
  ⟨fun listed => mixed.unheralded (less listed), fun listed => mixed.unclosed (less listed)⟩

theorem Finished.begun (finished : Finished decoded told) : Begun decoded told := by
  obtain ⟨mix, rfl, mixed, content⟩ := finished
  exact ⟨mix, List.prefix_refl _, mixed, by simp [content]⟩

theorem Finished.contents (finished : Finished decoded told) :
    Client.contents told = decoded := by
  obtain ⟨mix, rfl, _, content⟩ := finished
  simp [content]

theorem Begun.mono (begun : Begun decoded told) : Begun (decoded ++ more) told := by
  obtain ⟨mix, begins, mixed, content⟩ := begun
  exact ⟨mix, begins, mixed, content.trans (List.prefix_append ..)⟩

theorem Begun.of_begins (begun : Begun decoded told) (begins : done <+: told) :
    Begun decoded done := by
  obtain ⟨mix, whole, mixed, content⟩ := begun
  exact ⟨mix, begins.trans whole, mixed, (begins.filterMap _).trans content⟩

theorem begun_nil : Begun decoded [] :=
  ⟨[], List.nil_prefix, ⟨List.not_mem_nil, List.not_mem_nil⟩, List.nil_prefix⟩

namespace Line

variable {opened : Bool}

/-- Nothing in front of `closed` is behind the mix. -/
theorem of_unclosed (whole : Line decoded opened (done ++ rest) mix tail)
    (unclosed : .closed ∉ done) : done <+: .connected :: mix := by
  rcases List.append_eq_append_iff.mp whole.line with ⟨more, same, _⟩ | ⟨more, rfl, late⟩
  · exact ⟨more, same.symm⟩
  · have ending := whole.tail
    cases more with
    | nil => simp
    | cons first more =>
        rw [late] at ending
        split at ending
        · cases ending
        · obtain ⟨_, same⟩ := ending
          obtain ⟨rfl, _⟩ := List.cons.inj same
          simp at unclosed

/-- What has been reported before `closed` is a beginning. -/
theorem begun (whole : Line decoded opened (done ++ rest) mix tail)
    (unclosed : .closed ∉ done) : Begun decoded done := by
  have begins := whole.of_unclosed unclosed
  refine ⟨mix, begins.trans (List.prefix_append ..), whole.mixed, ?_⟩
  rw [← whole.content]
  exact begins.filterMap Report.message?

/-- `closed` comes when all else has been reported. -/
theorem finished (whole : Line decoded opened (done ++ .closed :: rest) mix tail)
    (unclosed : .closed ∉ done) : opened = false ∧ Finished decoded (done ++ [.closed]) := by
  obtain ⟨more, same⟩ := whole.of_unclosed unclosed
  have split := whole.line
  rw [← same, List.append_assoc] at split
  have next := List.append_cancel_left split
  cases more with
  | nil =>
      rw [List.append_nil] at same
      refine ⟨?_, mix, by rw [same], whole.mixed, whole.content⟩
      have ending := whole.tail
      rw [List.nil_append] at next
      rw [← next] at ending
      simpa using ending
  | cons first more =>
      obtain ⟨rfl, _⟩ := List.cons.inj next
      have listed : Report.closed ∈ .connected :: mix := same ▸ (by simp)
      rcases List.mem_cons.mp listed with other | inside
      · cases other
      · exact absurd inside whole.mixed.unclosed

/-- The connection is dropped after `connected` and before `closed`. -/
theorem dropped (whole : Line decoded opened (done ++ rest) mix tail)
    (unclosed : .closed ∉ done) (unheralded : .connected ∉ rest) :
    Begun decoded (done ++ [.closed]) := by
  obtain ⟨more, same⟩ := whole.of_unclosed unclosed
  cases done with
  | nil =>
      have front := whole.line
      rw [List.nil_append] at front
      rw [front] at unheralded
      simp at unheralded
  | cons first early =>
      obtain ⟨rfl, split⟩ := List.cons.inj same
      have mixed : Mixed early := whole.mixed.mono (by rw [← split]; exact List.subset_append_left ..)
      refine ⟨early, List.prefix_refl _, mixed, ?_⟩
      rw [← whole.content, ← split]
      simp

/-- The peer reports while its socket is open. -/
theorem open_append {message : Option Message} {error : Option ErrorCode} {after : Bool}
    (whole : Line decoded true line mix tail) :
    ∃ mix' tail', Line (decoded ++ message.toList) after
      (line ++ (message.toList.map .message ++
        (error.toList.map .error ++ if after then [] else [.closed]))) mix' tail' := by
  refine ⟨mix ++ (message.toList.map .message ++ error.toList.map .error),
    if after then [] else [.closed], ?_, ⟨?_, ?_⟩, ?_, ?_⟩
  · have none : tail = [] := whole.tail
    rw [whole.line, none]
    simp
  · have unheralded := whole.mixed.unheralded
    cases message <;> cases error <;> simp [unheralded]
  · have unclosed := whole.mixed.unclosed
    cases message <;> cases error <;> simp [unclosed]
  · rw [contents_append, whole.content]
    cases message <;> cases error <;> rfl
  · cases after <;> simp

/-- What the peer reports after the socket was shut comes late. -/
theorem shut_append (whole : Line decoded false line mix tail) (late : List Report) :
    Line decoded false (line ++ late) mix (tail ++ late) := by
  obtain ⟨rest, rfl⟩ : ∃ rest, tail = .closed :: rest := whole.tail
  refine ⟨?_, whole.mixed, whole.content, rest ++ late, rfl⟩
  rw [whole.line, List.append_assoc]

end Line

end

/-! ## Where a connection is -/

/-- The token was captured before the call that was performed last. -/
def State.Outdated (token : Nat) (state : State) : Prop :=
  token < state.scope.generation ∨
    token = state.scope.generation ∧ state.scope.running = false ∧
      ∃ rest, state.jobs = .invalidateScope :: rest

/-- The peer object of the attempt has closed its socket, or is gone. -/
def Io.Shut (attempt : Nat) (io : Io) : Prop :=
  ∀ connection, io.connections attempt = some connection → connection.peer.isOpen = false

/-- All that the connection has to report has been reported, unless it was dropped. -/
def Io.Complete (attempt : Nat) (io : Io) (reports : List Report) (notes : List Note) : Prop :=
  .discarded attempt ∈ notes ∨ Finished (decodedOf attempt notes) reports ∧ io.Shut attempt

/-- A connection has not been made, is the client's, has been left, or has lost its token. -/
inductive Stage (attempt token : Nat) (state : State) (told : List Report) (notes : List Note) :
    Prop where
  | unborn (fresh : attempt ≤ state.io.nextAttempt → state.scope.isCurrent token = true)
      (absent : state.io.connections attempt = none) (away : state.io.peer ≠ some attempt)
      (silent : told ++ notices attempt state.jobs ++
        (posted attempt state.handlers ++ signalled attempt state.jobs) = [])
      (undecoded : decodedOf attempt notes = [])
  | current {connection : Connection}
      (begun : attempt ≤ state.io.nextAttempt) (fresh : state.scope.isCurrent token = true)
      (current : state.io.peer = some attempt)
      (alive : state.io.connections attempt = some connection)
      (line : ∃ mix tail, Line (decodedOf attempt notes) connection.peer.isOpen
        (told ++ notices attempt state.jobs ++
          (posted attempt state.handlers ++ signalled attempt state.jobs)) mix tail)
      (unclosed : .closed ∉ told ++ notices attempt state.jobs)
  | left (begun : attempt ≤ state.io.nextAttempt) (fresh : state.scope.isCurrent token = true)
      (settled : state.io.connectingSocket ≠ some attempt)
      (away : state.io.peer ≠ some attempt)
      (reported : Begun (decodedOf attempt notes) (told ++ notices attempt state.jobs))
      (complete : state.io.Complete attempt (told ++ notices attempt state.jobs) notes)
  | stale (begun : attempt ≤ state.io.nextAttempt) (outdated : state.Outdated token)
      (ended : ∃ last, .ended last ∈ notes ∧ attempt ≤ last)
      (reported : Begun (decodedOf attempt notes) told)
      (complete : .closed ∈ told → state.io.Complete attempt told notes)

section

variable {options : CommonOptions} {scope : NotificationScope} {io : Io} {turn : Turn}
  {handler : Handler} {attempt token : Nat} {notes more : List Note} {reports : List Report}

theorem State.Outdated.not_current {state : State} (outdated : state.Outdated token) :
    state.scope.isCurrent token = false := by
  rcases outdated with late | ⟨_, halted, _⟩
  · simp [NotificationScope.isCurrent, Nat.ne_of_gt late]
  · simp [NotificationScope.isCurrent, halted]

/-- A shut peer stays shut, and decodes nothing more. -/
theorem Turn.Route.shut (route : Turn.Route options scope attempt handler io turn)
    (unborn : ∀ credentials token,
      handler = .handleConnectedSocket attempt credentials true token →
      scope.isCurrent token = true → io.connectingSocket ≠ some attempt)
    (shut : io.Shut attempt) :
    turn.io.Shut attempt ∧ decodedOf attempt (handler.note options io) = [] := by
  have kept (same : turn.io.connections attempt = io.connections attempt) :
      turn.io.Shut attempt := fun connection alive => shut connection (same.symm.trans alive)
  cases route with
  | aside dropped adds peer connection unspoken =>
      exact ⟨kept connection, decodedOf_aside unspoken⟩
  | born own connecting current => exact absurd connecting (unborn _ _ own current)
  | @spoke spoken connection own alive adds peer after =>
      have closed := shut connection alive
      refine ⟨fun later alive' => ?_, ?_⟩
      · rw [after, Option.some.injEq] at alive'
        rw [← alive']
        have stays := (PeerTurn.run_shape options spoken connection.peer).isOpen
        dsimp only
        cases opened : (PeerTurn.run options spoken { peer := connection.peer }).peer.isOpen with
        | false => rfl
        | true => simp [stays opened] at closed
      · rw [own, decodedOf_spoke alive, closed]
        rfl
  | passed own current adds peer connection =>
      refine ⟨kept connection, decodedOf_aside fun spoken same => ?_⟩
      rw [same] at own
      cases own
  | timedOut own called enabled current adds peer connection =>
      refine ⟨kept connection, decodedOf_aside fun spoken same => ?_⟩
      rw [same] at own
      cases own
  | cleaned own current adds peer connection =>
      refine ⟨kept connection, decodedOf_aside fun spoken same => ?_⟩
      rw [same] at own
      cases own

theorem Io.Complete.handled (complete : io.Complete attempt reports notes)
    (route : Turn.Route options scope attempt handler io turn)
    (unborn : ∀ credentials token,
      handler = .handleConnectedSocket attempt credentials true token →
      scope.isCurrent token = true → io.connectingSocket ≠ some attempt) :
    turn.io.Complete attempt reports (notes ++ handler.note options io) := by
  rcases complete with dropped | ⟨finished, shut⟩
  · exact .inl (List.mem_append_left _ dropped)
  · obtain ⟨shut', undecoded⟩ := route.shut unborn shut
    refine .inr ⟨?_, shut'⟩
    rw [decodedOf_append, undecoded, List.append_nil]
    exact finished

end

/-! ## Handlers -/

section

variable {options : CommonOptions} {state : State} {turn : Turn} {handler : Handler}
  {rest : List Handler} {attempt token : Nat} {told : List Report} {notes : List Note}

/-- The client connects what it connected before, or what it has just begun. -/
theorem Turn.ConnectionMove.settled
    (move : Turn.ConnectionMove options state.scope handler state.io turn)
    (settled : state.io.connectingSocket ≠ some attempt) (begun : attempt ≤ state.io.nextAttempt) :
    turn.io.connectingSocket ≠ some attempt := by
  cases move with
  | kept connectingSocket => rwa [connectingSocket]
  | began own current free connectingSocket =>
      rw [connectingSocket, ne_eq, Option.some.injEq]
      omega
  | connected own current connecting connectingSocket => simp [connectingSocket]
  | reported token notice warrant retries told free => simp [free.1]
  | discarded own connecting stale free => simp [free.1]
  | cleaned own free => simp [free.1]

theorem Handler.note_cleans (cleans : handler.cleans = true)
    (current : state.io.peer = some attempt) :
    .discarded attempt ∈ handler.note options state.io := by
  cases handler with
  | stop => simp [Handler.note, current]
  | invalidateConnection token => simp [Handler.note, current]
  | _ => cases cleans

theorem Handler.note_timedOut {timer : RequestTimer Nat} {captured : Nat}
    (called : (state.io.requestManager.onTimer timer).2 = some captured)
    (enabled : options.invalidateConnectionOnRequestError = true)
    (current : state.io.peer = some attempt) :
    .discarded attempt ∈ (Handler.requestTimer timer).note options state.io := by
  simp [Handler.note, called, enabled, current]

/-- A handler that has nothing to do with the reports leaves the line alone. -/
theorem State.handled_aside (queued : state.handlers = handler :: rest)
    (adds : turn.Adds attempt [] [] []) (unreported : handler.report? attempt = none) :
    notices attempt (state.handled rest turn).jobs = notices attempt state.jobs ∧
      posted attempt (state.handled rest turn).handlers = posted attempt state.handlers ∧
      signalled attempt (state.handled rest turn).jobs = signalled attempt state.jobs := by
  refine ⟨?_, ?_, ?_⟩
  · simp [State.handled, adds.notices]
  · simp [State.handled, adds.posts, queued, unreported]
  · simp [State.handled, adds.signalled]

theorem Stage.handled_unborn
    (fresh : attempt ≤ turn.io.nextAttempt → state.scope.isCurrent token = true)
    (absent : state.io.connections attempt = none) (away : state.io.peer ≠ some attempt)
    (silent : told ++ notices attempt state.jobs ++
      (posted attempt state.handlers ++ signalled attempt state.jobs) = [])
    (undecoded : decodedOf attempt notes = [])
    (numbered : state.io.connectingSocket = some attempt → attempt ≤ turn.io.nextAttempt)
    (route : Turn.Route options state.scope attempt handler state.io turn)
    (queued : state.handlers = handler :: rest) :
    Stage attempt token (state.handled rest turn) told
      (notes ++ handler.note options state.io) := by
  simp only [List.append_eq_nil_iff] at silent
  obtain ⟨⟨untold, unnoticed⟩, unposted, unsignalled⟩ := silent
  have unreported : handler.report? attempt = none ∧ posted attempt rest = [] := by
    rw [queued, posted_cons, List.append_eq_nil_iff] at unposted
    simpa using unposted
  cases route with
  | aside dropped adds peer connection unspoken =>
      obtain ⟨same, same', same''⟩ := State.handled_aside queued adds unreported.1
      refine .unborn fresh (connection.trans absent) ?_ ?_ ?_
      · rcases peer with kept | ⟨_, other⟩
        · exact fun current => away (kept.symm.trans current)
        · exact other
      · rw [same, same', same'']
        simp [untold, unnoticed, unposted, unsignalled]
      · rw [decodedOf_append, undecoded, decodedOf_aside unspoken]
        rfl
  | @born credentials captured own connecting current adds peer connection =>
      have begun := numbered connecting
      have undecoded' : decodedOf attempt (notes ++ handler.note options state.io) = [] := by
        rw [decodedOf_append, undecoded, decodedOf_aside (by simp [own])]
        rfl
      have line : told ++ notices attempt (state.handled rest turn).jobs ++
          (posted attempt (state.handled rest turn).handlers ++
            signalled attempt (state.handled rest turn).jobs) = [.connected] := by
        simp [State.handled, adds.posts, adds.notices, adds.signalled, untold, unnoticed,
          unreported.2, unsignalled]
      have whole : Line [] true [.connected] [] [] :=
        ⟨rfl, ⟨List.not_mem_nil, List.not_mem_nil⟩, rfl, rfl⟩
      refine .current begun (fresh begun) peer connection ?_ ?_
      · rw [line, undecoded']
        exact ⟨_, _, whole⟩
      · simp [State.handled, untold, unnoticed, adds.notices]
  | spoke own alive => exact absurd (absent.symm.trans alive) (by simp)
  | passed own current => exact absurd current away
  | timedOut own called enabled current => exact absurd current away
  | cleaned own current => exact absurd current away

/-- While the client has the connection, the line grows at the end and moves on. -/
theorem Stage.handled_current {connection : Connection} {mix tail : List Report}
    (begun : attempt ≤ turn.io.nextAttempt) (fresh : state.scope.isCurrent token = true)
    (current : state.io.peer = some attempt)
    (alive : state.io.connections attempt = some connection)
    (line : Line (decodedOf attempt notes) connection.peer.isOpen
      (told ++ notices attempt state.jobs ++
        (posted attempt state.handlers ++ signalled attempt state.jobs)) mix tail)
    (unclosed : .closed ∉ told ++ notices attempt state.jobs)
    (unborn : state.io.connectingSocket ≠ some attempt)
    (settled : turn.io.connectingSocket ≠ some attempt)
    (paced : state.Paced attempt token)
    (route : Turn.Route options state.scope attempt handler state.io turn)
    (queued : state.handlers = handler :: rest) :
    Stage attempt token (state.handled rest turn) told
      (notes ++ handler.note options state.io) := by
  have undecoded (other : ∀ spoken, handler ≠ .peer attempt spoken) :
      decodedOf attempt (notes ++ handler.note options state.io) = decodedOf attempt notes := by
    rw [decodedOf_append, decodedOf_aside fun spoken own => absurd own (other spoken),
      List.append_nil]
  cases route with
  | aside dropped adds peer connected unspoken =>
      have unreported := dropped.resolve_right (not_not_intro current)
      obtain ⟨same, same', same''⟩ := State.handled_aside queued adds unreported
      have still : turn.io.peer = some attempt :=
        peer.elim (·.trans current) fun other => absurd current other.1
      refine .current begun fresh still (connected.trans alive) ?_ ?_
      · rw [same, same', same'', decodedOf_append, decodedOf_aside unspoken, List.append_nil]
        exact ⟨mix, tail, line⟩
      · rw [same]
        exact unclosed
  | born own connecting => exact absurd connecting unborn
  | @spoke spoken other own alive' adds peer after =>
      obtain rfl : connection = other := Option.some.inj (alive.symm.trans alive')
      subst own
      have same : notices attempt (state.handled rest turn).jobs = notices attempt state.jobs := by
        simp [State.handled, adds.notices]
      have grown : told ++ notices attempt (state.handled rest turn).jobs ++
          (posted attempt (state.handled rest turn).handlers ++
            signalled attempt (state.handled rest turn).jobs) =
          told ++ notices attempt state.jobs ++
            (posted attempt state.handlers ++ signalled attempt state.jobs) ++
            (PeerTurn.run options spoken { peer := connection.peer }).signals.filterMap
              Signal.report? := by
        simp [State.handled, adds.posts, adds.notices, adds.signalled, queued, Handler.report?]
      have stays := (PeerTurn.run_shape options spoken connection.peer).isOpen
      have unclosed' : .closed ∉ told ++ notices attempt (state.handled rest turn).jobs := by
        rw [same]
        exact unclosed
      have still : turn.io.peer = some attempt := peer.trans current
      cases opened : connection.peer.isOpen with
      | true =>
          obtain ⟨error, reports⟩ := PeerTurn.run_reports options spoken opened
          rw [opened] at line
          obtain ⟨mix', tail', line'⟩ := @Line.open_append _ _ _ _
            (connection.peer.decoded? options spoken) error
            (PeerTurn.run options spoken { peer := connection.peer }).peer.isOpen line
          refine .current begun fresh still after ⟨mix', tail', ?_⟩ unclosed'
          rw [grown, reports, decodedOf_append, decodedOf_spoke alive, opened, if_pos rfl]
          exact line'
      | false =>
          rw [opened] at line
          have shut : (PeerTurn.run options spoken { peer := connection.peer }).peer.isOpen =
              false := by
            cases reopened :
                (PeerTurn.run options spoken { peer := connection.peer }).peer.isOpen with
            | false => rfl
            | true => simp [stays reopened] at opened
          refine .current begun fresh still after ⟨mix, tail ++
            (PeerTurn.run options spoken { peer := connection.peer }).signals.filterMap
              Signal.report?, ?_⟩ unclosed'
          rw [grown, decodedOf_append, decodedOf_spoke alive, opened, shut, if_neg (by simp),
            List.append_nil]
          exact line.shut_append _
  | @passed report own current' adds peer connected =>
      have other : ∀ spoken, handler ≠ .peer attempt spoken := by
        rintro spoken rfl
        cases own
      have passes : told ++ notices attempt state.jobs ++
          (posted attempt state.handlers ++ signalled attempt state.jobs) =
          told ++ notices attempt state.jobs ++
            (report :: (posted attempt rest ++ signalled attempt state.jobs)) := by
        simp [queued, own]
      have moved : told ++ notices attempt (state.handled rest turn).jobs =
          told ++ notices attempt state.jobs ++ [report] := by
        simp [State.handled, adds.notices]
      by_cases last : report = .closed
      · subst last
        rw [passes] at line
        obtain ⟨shut, finished⟩ := line.finished unclosed
        refine .left begun fresh settled ?_ ?_ (.inr ⟨?_, fun later alive' => ?_⟩)
        · simp [State.handled, peer]
        · rw [moved, undecoded other]
          exact finished.begun
        · rw [moved, undecoded other]
          exact finished
        · obtain rfl : connection = later :=
            Option.some.inj (alive.symm.trans (connected.symm.trans alive'))
          exact shut
      · refine .current begun fresh (peer.trans (if_neg last)) (connected.trans alive)
          ⟨mix, tail, ?_⟩ ?_
        · rw [undecoded other, moved]
          rw [passes] at line
          simpa [State.handled, adds.posts, adds.signalled] using line
        · rw [moved, List.mem_append]
          exact not_or.mpr ⟨unclosed, by simpa using Ne.symm last⟩
  | @timedOut timer captured own called enabled current' adds peer connected =>
      subst own
      have heralded := (paced.called current queued called).2
      have unheralded : .connected ∉
          posted attempt state.handlers ++ signalled attempt state.jobs := by
        rw [queued, posted_cons, List.mem_append, List.mem_append]
        refine not_or.mpr ⟨not_or.mpr ⟨by simp [Handler.report?], heralded⟩, ?_⟩
        exact not_connected_mem_signalled state.jobs
      have moved : told ++ notices attempt (state.handled rest turn).jobs =
          told ++ notices attempt state.jobs ++ [.closed] := by
        simp [State.handled, adds.notices]
      refine .left begun fresh settled (by simp [State.handled, peer]) ?_ (.inl ?_)
      · rw [moved, undecoded (by simp)]
        exact line.dropped unclosed unheralded
      · exact List.mem_append_right _ (Handler.note_timedOut called enabled current)
  | cleaned own current' adds peer connected =>
      have other : ∀ spoken, handler ≠ .peer attempt spoken := by
        rintro spoken rfl
        cases own
      have same : notices attempt (state.handled rest turn).jobs = notices attempt state.jobs := by
        simp [State.handled, adds.notices]
      refine .left begun fresh settled (by simp [State.handled, peer]) ?_ (.inl ?_)
      · rw [same, undecoded other]
        exact line.begun unclosed
      · exact List.mem_append_right _ (Handler.note_cleans own current)

/-- A connection that the client has left adds nothing. -/
theorem Stage.handled_left (begun : attempt ≤ turn.io.nextAttempt)
    (fresh : state.scope.isCurrent token = true)
    (unborn : state.io.connectingSocket ≠ some attempt) (away : state.io.peer ≠ some attempt)
    (settled : turn.io.connectingSocket ≠ some attempt)
    (reported : Begun (decodedOf attempt notes) (told ++ notices attempt state.jobs))
    (complete : state.io.Complete attempt (told ++ notices attempt state.jobs) notes)
    (route : Turn.Route options state.scope attempt handler state.io turn) :
    Stage attempt token (state.handled rest turn) told
      (notes ++ handler.note options state.io) := by
  have complete' := complete.handled route fun _ _ _ _ => unborn
  have reported' : Begun (decodedOf attempt (notes ++ handler.note options state.io))
      (told ++ notices attempt state.jobs) := by
    rw [decodedOf_append]
    exact reported.mono
  have goes (same : notices attempt turn.jobs = []) (away' : turn.io.peer ≠ some attempt) :
      Stage attempt token (state.handled rest turn) told
        (notes ++ handler.note options state.io) := by
    have kept : notices attempt (state.handled rest turn).jobs = notices attempt state.jobs := by
      simp [State.handled, same]
    refine .left begun fresh settled away' ?_ ?_
    · rw [kept]
      exact reported'
    · rw [kept]
      exact complete'
  cases route with
  | aside dropped adds peer =>
      refine goes adds.notices ?_
      rcases peer with kept | ⟨_, other⟩
      · exact fun current => away (kept.symm.trans current)
      · exact other
  | born own connecting => exact absurd connecting unborn
  | spoke own alive adds peer =>
      exact goes adds.notices fun current => away (peer.symm.trans current)
  | passed own current => exact absurd current away
  | timedOut own called enabled current => exact absurd current away
  | cleaned own current => exact absurd current away

theorem Stage.handled_stale (begun : attempt ≤ turn.io.nextAttempt)
    (outdated : state.Outdated token) (ended : ∃ last, .ended last ∈ notes ∧ attempt ≤ last)
    (reported : Begun (decodedOf attempt notes) told)
    (complete : .closed ∈ told → state.io.Complete attempt told notes)
    (paced : state.Paced attempt token)
    (route : Turn.Route options state.scope attempt handler state.io turn)
    (queued : state.handlers = handler :: rest) :
    Stage attempt token (state.handled rest turn) told
      (notes ++ handler.note options state.io) := by
  have unborn : ∀ credentials captured,
      handler = .handleConnectedSocket attempt credentials true captured →
      state.scope.isCurrent captured = true → state.io.connectingSocket ≠ some attempt := by
    intro credentials captured own current
    have stamped := paced.stamped.queued.handlers handler (by simp [queued])
    rw [own] at stamped
    obtain rfl : captured = token := stamped rfl
    simp [outdated.not_current] at current
  refine .stale begun ?_ ?_ ?_ fun closed => (complete closed).handled route unborn
  · refine outdated.imp_right fun ⟨same, halted, more, front⟩ => ⟨same, halted, ?_⟩
    exact ⟨more ++ turn.jobs, by simp [State.handled, front]⟩
  · obtain ⟨last, noted, bound⟩ := ended
    exact ⟨last, List.mem_append_left _ noted, bound⟩
  · rw [decodedOf_append]
    exact reported.mono

end

/-! ## Jobs -/

section

variable {state : State} {job : Job} {rest : List Job} {attempt token : Nat}
  {told : List Report} {notes : List Note}

/-- The notifications of the attempt are delivered as long as its token is current. -/
theorem Job.isCurrent_of_report {report : Report} {scope : NotificationScope}
    (stamped : job.Stamped fun other captured => other = attempt → captured = token)
    (reported : job.report? attempt = some report) :
    job.isCurrent scope = scope.isCurrent token := by
  cases job with
  | notify captured notice =>
      have same : captured = token := by
        cases notice with
        | connectFailed => cases reported
        | verifyPeer => cases reported
        | peerVerificationFailed => cases reported
        | scheduleReconnect => cases reported
        | _ =>
            simp only [Job.report?, Notice.report?, Option.ite_none_right_eq_some] at reported
            exact stamped reported.1
      rw [same]
      rfl
  | _ => cases reported

theorem Finished.all {decoded : List Message} {done more : List Report}
    (finished : Finished decoded (done ++ more)) (closed : .closed ∈ done) : more = [] := by
  obtain ⟨mix, same, mixed, _⟩ := finished
  induction more using List.reverseRecOn with
  | nil => rfl
  | append_singleton early last _ =>
      rw [← List.append_assoc] at same
      have front := (List.append_inj' same rfl).1
      have listed : Report.closed ∈ .connected :: mix := front ▸ List.mem_append_left _ closed
      rcases List.mem_cons.mp listed with other | inside
      · cases other
      · exact absurd inside mixed.unclosed

theorem Io.Complete.noted {io : Io} {reports : List Report} {more : List Note}
    (complete : io.Complete attempt reports notes) (undecoded : decodedOf attempt more = []) :
    io.Complete attempt reports (notes ++ more) := by
  refine complete.imp (List.mem_append_left _) (And.imp_left ?_)
  rw [decodedOf_append, undecoded, List.append_nil]
  exact id

/-- A token stays current until a call, which makes it stale for good. -/
theorem State.performed_fresh (fresh : state.scope.isCurrent token = true)
    (cleaning : ∃ todo others, Cleaning state todo others) (queued : state.jobs = job :: rest)
    (verdict : Bool) :
    (state.performed rest job verdict).scope.isCurrent token = true ∨
      job.isCall = true ∧ (state.performed rest job verdict).Outdated token := by
  obtain ⟨running, same⟩ := NotificationScope.isCurrent_iff.mp fresh
  have scope : (state.performed rest job verdict).scope = _ :=
    perform_scope state.dispatcher job verdict
  cases job with
  | stop => exact .inr ⟨rfl, .inr ⟨same.symm, rfl, _, rfl⟩⟩
  | invalidateConnection =>
      refine .inr ⟨rfl, .inl ?_⟩
      rw [scope, ← same]
      exact Nat.lt_succ_self _
  | invalidateScope =>
      -- The scope does not run while this effect of a `stop()` is queued.
      obtain ⟨todo, others, cleaning⟩ := cleaning
      obtain ⟨later, rfl, _⟩ := cleaning.of_part queued rfl
      have stopping : .postStop ∈ Job.invalidateScope :: later := by
        rcases cleaning.tails with same | same | same | same | same | same <;>
          simp_all [stopTail, invalidateTail]
      exact absurd (running.symm.trans (cleaning.halted stopping)) (by simp)
  | start =>
      refine .inl ?_
      rw [scope]
      exact NotificationScope.isCurrent_iff.mpr ⟨rfl, same⟩
  | _ => exact .inl fresh

/-- A stale token stays stale: the rest of a `stop()` is in front of the queue. -/
theorem State.Outdated.performed (outdated : state.Outdated token)
    (queued : state.jobs = job :: rest) (verdict : Bool) :
    (state.performed rest job verdict).Outdated token := by
  rcases outdated with late | ⟨same, _, more, front⟩
  · exact .inl (late.trans_le (perform_generation_le _ _ verdict))
  · obtain ⟨rfl, rfl⟩ := List.cons.inj (front.symm.trans queued)
    refine .inl ?_
    rw [same]
    exact Nat.lt_succ_self _

/-- A job that does not deliver moves what its slot or its notification carries. -/
theorem State.performed_moves (queued : state.jobs = job :: rest) (verdict : Bool) :
    (job.report? attempt).toList ++ notices attempt (state.performed rest job verdict).jobs =
        notices attempt state.jobs ∧
      posted attempt (state.performed rest job verdict).handlers ++
        signalled attempt (state.performed rest job verdict).jobs =
        posted attempt state.handlers ++ signalled attempt state.jobs := by
  have conveys := perform_conveys attempt state.dispatcher job verdict
  refine ⟨?_, ?_⟩
  · simp [State.performed, queued, conveys.notices.1, conveys.notices.2]
  · simp [State.performed, queued, conveys.posts, conveys.signalled.1, conveys.signalled.2]

theorem Stage.performed (stage : Stage attempt token state told notes)
    (paced : attempt ≤ state.io.nextAttempt → state.Paced attempt token)
    (cleaning : ∃ todo others, Cleaning state todo others) (queued : state.jobs = job :: rest)
    (verdict : Bool) :
    Stage attempt token (state.performed rest job verdict)
      (told ++ delivered attempt (perform state.dispatcher job verdict).2.events)
      (notes ++ if job.isCall then [.ended state.io.nextAttempt] else []) := by
  obtain ⟨moved, kept⟩ := @State.performed_moves state job rest attempt queued verdict
  have events := (perform_conveys attempt state.dispatcher job verdict).events
  have undecoded : decodedOf attempt
      (if job.isCall then [Note.ended state.io.nextAttempt] else []) = [] := by
    split <;> rfl
  have same : decodedOf attempt
      (notes ++ if job.isCall then [Note.ended state.io.nextAttempt] else []) =
      decodedOf attempt notes := by
    rw [decodedOf_append, undecoded, List.append_nil]
  -- While the token is current, what leaves the queue is delivered.
  have delivers (begun : attempt ≤ state.io.nextAttempt)
      (fresh : state.scope.isCurrent token = true) :
      told ++ delivered attempt (perform state.dispatcher job verdict).2.events ++
          notices attempt (state.performed rest job verdict).jobs =
        told ++ notices attempt state.jobs := by
    rw [List.append_assoc, events, ← moved]
    cases reported : job.report? attempt with
    | none => simp
    | some report =>
        have stamped := (paced begun).stamped.queued.jobs job (by simp [queued])
        rw [Job.isCurrent_of_report stamped reported, fresh, if_pos rfl]
  -- A call delivers nothing itself, and is noted.
  have stops (begun : attempt ≤ state.io.nextAttempt) (call : job.isCall = true)
      (outdated : (state.performed rest job verdict).Outdated token)
      (reported : Begun (decodedOf attempt notes) told)
      (complete : .closed ∈ told → state.io.Complete attempt told notes) :
      Stage attempt token (state.performed rest job verdict)
        (told ++ delivered attempt (perform state.dispatcher job verdict).2.events)
        (notes ++ if job.isCall then [.ended state.io.nextAttempt] else []) := by
    have silent : delivered attempt (perform state.dispatcher job verdict).2.events = [] := by
      cases job <;> first | rfl | cases call
    rw [silent, List.append_nil]
    refine .stale begun outdated ⟨state.io.nextAttempt, by simp [call], begun⟩ ?_
      fun closed => (complete closed).noted undecoded
    rw [same]
    exact reported
  cases stage with
  | unborn fresh absent away silent undecoded' =>
      have nothing := silent
      simp only [List.append_eq_nil_iff] at nothing
      obtain ⟨⟨rfl, unnoticed⟩, unposted, unsignalled⟩ := nothing
      rw [unnoticed, List.append_eq_nil_iff] at moved
      have undelivered : delivered attempt (perform state.dispatcher job verdict).2.events = [] := by
        rw [events, moved.1]
        simp
      by_cases late : attempt ≤ state.io.nextAttempt ∧
          (state.performed rest job verdict).scope.isCurrent token = false
      · obtain ⟨begun, stale⟩ := late
        rcases State.performed_fresh (fresh begun) cleaning queued verdict with fresh' | ⟨call, out⟩
        · simp [stale] at fresh'
        · exact stops begun call out begun_nil (by simp)
      · refine .unborn (fun begun => ?_) absent away ?_ (same.trans undecoded')
        · by_contra stale
          exact late ⟨begun, by simpa only [Bool.not_eq_true] using stale⟩
        · rw [undelivered, moved.2, kept, unposted, unsignalled]
          rfl
  | current begun fresh current alive line unclosed =>
      obtain ⟨mix, tail, line⟩ := line
      rcases State.performed_fresh fresh cleaning queued verdict with fresh' | ⟨call, out⟩
      · refine .current begun fresh' current alive ⟨mix, tail, ?_⟩ ?_
        · rw [same, delivers begun fresh, kept]
          exact line
        · rw [delivers begun fresh]
          exact unclosed
      · rw [List.mem_append, not_or] at unclosed
        rw [List.append_assoc] at line
        exact stops begun call out (line.begun unclosed.1) fun closed => absurd closed unclosed.1
  | left begun fresh settled away reported complete =>
      rcases State.performed_fresh fresh cleaning queued verdict with fresh' | ⟨call, out⟩
      · refine .left begun fresh' settled away ?_ ?_
        · rw [same, delivers begun fresh]
          exact reported
        · rw [delivers begun fresh]
          exact complete.noted undecoded
      · refine stops begun call out (reported.of_begins (List.prefix_append ..)) fun closed => ?_
        refine complete.imp_right fun ⟨finished, shut⟩ => ⟨?_, shut⟩
        have all := finished.all closed
        rw [all, List.append_nil] at finished
        exact finished
  | stale begun outdated ended reported complete =>
      have silent : delivered attempt (perform state.dispatcher job verdict).2.events = [] := by
        rw [events]
        cases reported : job.report? attempt with
        | none => simp
        | some report =>
            have stamped := (paced begun).stamped.queued.jobs job (by simp [queued])
            rw [Job.isCurrent_of_report stamped reported, outdated.not_current, if_neg (by simp)]
      rw [silent, List.append_nil]
      refine .stale begun (outdated.performed queued verdict) ?_ ?_
        fun closed => (complete closed).noted undecoded
      · obtain ⟨last, noted, bound⟩ := ended
        exact ⟨last, List.mem_append_left _ noted, bound⟩
      · rw [same]
        exact reported

end

/-! ## The environment -/

section

variable {state state' : State} {attempt token : Nat} {told : List Report} {notes : List Note}

theorem Stage.due {job : Job} {index : Nat} (stage : Stage attempt token state told notes)
    (reconnects : job.Reconnects) (idle : state.jobs = []) :
    Stage attempt token { state with jobs := [job], delayed := state.delayed.eraseIdx index }
      told notes := by
  obtain ⟨generation, rfl⟩ := reconnects
  have unnoticed : notices attempt [Job.reconnect generation] = notices attempt state.jobs := by
    rw [idle]
    rfl
  have unsignalled : signalled attempt [Job.reconnect generation] =
      signalled attempt state.jobs := by
    rw [idle]
    rfl
  cases stage with
  | unborn fresh absent away silent undecoded =>
      refine .unborn fresh absent away ?_ undecoded
      rw [unnoticed, unsignalled]
      exact silent
  | current begun fresh current alive line unclosed =>
      refine .current begun fresh current alive ?_ ?_
      · rw [unnoticed, unsignalled]
        exact line
      · rw [unnoticed]
        exact unclosed
  | left begun fresh settled away reported complete =>
      refine .left begun fresh settled away ?_ ?_
      · rw [unnoticed]
        exact reported
      · rw [unnoticed]
        exact complete
  | stale begun outdated ended reported complete =>
      refine .stale begun ?_ ended reported complete
      refine outdated.imp_right fun ⟨_, _, rest, front⟩ => ?_
      simp [idle] at front

theorem Settled.complete {reports : List Report} (settled : Settled attempt state state')
    (complete : state.io.Complete attempt reports notes) :
    state'.io.Complete attempt reports notes := by
  refine complete.imp_right fun ⟨finished, shut⟩ => ⟨finished, fun after alive => ?_⟩
  obtain ⟨connection, alive', same⟩ := settled.connections after alive
  exact same.trans (shut connection alive')

theorem Stage.accepts {input : Input} {events : List Event}
    (stage : Stage attempt token state told notes)
    (accepts : Accepts state input events state') : Stage attempt token state' told notes := by
  have settled := accepts.settled attempt
  have attempts := accepts.attempts
  obtain ⟨dispatcher, _, jobs⟩ := accepts.jobs
  have scope : state'.scope = state.scope := congrArg Dispatcher.notificationScope dispatcher
  have connecting : state'.io.connectingSocket = state.io.connectingSocket := by
    cases accepts <;> rfl
  cases stage with
  | unborn fresh absent away silent undecoded =>
      refine .unborn ?_ ?_ (by rw [settled.peer]; exact away) ?_ undecoded
      · rw [attempts, scope]
        exact fresh
      · refine Option.eq_none_iff_forall_ne_some.mpr fun after alive => ?_
        obtain ⟨connection, alive', _⟩ := settled.connections after alive
        simp [absent] at alive'
      · rw [settled.notices, settled.posts]
        rcases settled.signalled with same | ⟨_, none⟩
        · rw [same]
          exact silent
        · simp only [List.append_eq_nil_iff] at silent ⊢
          exact ⟨silent.1, silent.2.1, none⟩
  | current begun fresh current alive line unclosed =>
      obtain ⟨after, alive', same⟩ := settled.alive _ current alive
      have signals := settled.signalled.resolve_right fun other => other.1 current
      refine .current (attempts ▸ begun) (scope ▸ fresh) (settled.peer.trans current) alive' ?_ ?_
      · rw [settled.notices, settled.posts, signals, same]
        exact line
      · rw [settled.notices]
        exact unclosed
  | left begun fresh unborn away reported complete =>
      refine .left (attempts ▸ begun) (scope ▸ fresh) (by rwa [connecting])
        (by rw [settled.peer]; exact away) ?_ ?_
      · rw [settled.notices]
        exact reported
      · rw [settled.notices]
        exact settled.complete complete
  | stale begun outdated ended reported complete =>
      refine .stale (attempts ▸ begun) ?_ ended reported fun closed =>
        settled.complete (complete closed)
      rcases outdated with late | ⟨same, halted, rest, front⟩
      · exact .inl (scope ▸ late)
      · refine .inr ⟨scope ▸ same, scope ▸ halted, ?_⟩
        rw [front] at jobs
        rcases jobs with jobs | jobs | jobs | jobs | ⟨attempt, jobs⟩
        · exact ⟨_, jobs⟩
        · exact ⟨_, jobs⟩
        · exact ⟨_, jobs⟩
        · exact ⟨_, jobs⟩
        · exact ⟨_, jobs⟩

end

/-! ## Whole runs -/

section

variable {options : CommonOptions} {attempt token : Nat}

theorem Stage.retoken {state : State} {other : Nat} {told : List Report} {notes : List Note}
    (stage : Stage attempt token state told notes) (unbegun : ¬ attempt ≤ state.io.nextAttempt) :
    Stage attempt other state told notes := by
  cases stage with
  | unborn fresh absent away silent undecoded =>
      exact .unborn (fun begun => absurd begun unbegun) absent away silent undecoded
  | current begun => exact absurd begun unbegun
  | left begun => exact absurd begun unbegun
  | stale begun => exact absurd begun unbegun

/-- Attempts are numbered from one. -/
theorem initial_stage (positive : 0 < attempt) : Stage attempt token initial [] [] := by
  refine .unborn (fun begun => ?_) rfl (by simp [initial]) rfl rfl
  have none : attempt ≤ 0 := begun
  omega

/-- A handler moves the reports of every connection. -/
theorem Stage.handled {state : State} {handler : Handler} {rest : List Handler}
    {endpoint : Endpoint} {log : List Event} {told : List Report} {notes : List Note}
    (stage : Stage attempt token state told notes)
    (paced : attempt ≤ state.io.nextAttempt → state.Paced attempt token)
    (starts : ¬ attempt ≤ state.io.nextAttempt →
      attempt ≤ (Turn.run options state.scope endpoint handler { io := state.io }).io.nextAttempt →
      state.scope.isCurrent token = true)
    (tracked : state.Tracked) (single : state.io.Single log)
    (queued : state.handlers = handler :: rest) :
    Stage attempt token
      (state.handled rest (Turn.run options state.scope endpoint handler { io := state.io })) told
      (notes ++ handler.note options state.io) := by
  have route : Turn.Route options state.scope attempt handler state.io
      (Turn.run options state.scope endpoint handler { io := state.io }) :=
    Turn.run_route single.exclusive endpoint handler
  have move : Turn.ConnectionMove options state.scope handler state.io
      (Turn.run options state.scope endpoint handler { io := state.io }) :=
    Turn.run_connectionMove single.exclusive endpoint handler
  have later := (Turn.run_attempts options state.scope endpoint handler { io := state.io }).1
  cases stage with
  | unborn fresh absent away silent undecoded =>
      refine Stage.handled_unborn (fun begun => ?_) absent away silent undecoded
        (fun connecting => (tracked.numbered attempt (.inl connecting)).trans later) route queued
      by_cases before : attempt ≤ state.io.nextAttempt
      · exact fresh before
      · exact starts before begun
  | current begun fresh current alive line unclosed =>
      obtain ⟨mix, tail, line⟩ := line
      have unborn : state.io.connectingSocket ≠ some attempt := by
        intro connecting
        have absent := single.exclusive (by simp [connecting])
        exact absurd (absent.symm.trans current) (by simp)
      exact Stage.handled_current (begun.trans later) fresh current alive line unclosed unborn
        (move.settled unborn begun) (paced begun) route queued
  | left begun fresh settled away reported complete =>
      exact Stage.handled_left (begun.trans later) fresh settled away (move.settled settled begun)
        reported complete route
  | stale begun outdated ended reported complete =>
      exact Stage.handled_stale (begun.trans later) outdated ended reported complete (paced begun)
        route queued

/-- Every connection is in one of the stages. -/
theorem run_stage {log : List (Event ⊕ Note)} {state : State}
    (run : Run (tracedSystem options) Whole initial log state) (positive : 0 < attempt) :
    ∃ token, (attempt ≤ state.io.nextAttempt → state.Paced attempt token) ∧
      Stage attempt token state (delivered attempt (eventsOf log)) (notesOf log) := by
  induction run with
  | refl => exact ⟨0, fun _ => initial_paced attempt, initial_stage positive⟩
  | @next log state label events state' run permit step ih =>
      obtain ⟨token, paced, stage⟩ := ih
      have plain := run.of_annotating
      have tracked := run_tracked plain
      have backed := run_backed plain
      have cleaning := run_cleaning plain
      obtain ⟨step, noted⟩ := Run.step_of_annotating step
      rw [eventsOf_append, notesOf_append, delivered_append, noted]
      generalize eventsOf events = emitted at step
      -- The token of an attempt that begins is chosen now.
      obtain ⟨token, paced, stage, paced', starts⟩ : ∃ token,
          (attempt ≤ state.io.nextAttempt → state.Paced attempt token) ∧
          Stage attempt token state (delivered attempt (eventsOf log)) (notesOf log) ∧
          (attempt ≤ state'.io.nextAttempt → state'.Paced attempt token) ∧
          (¬ attempt ≤ state.io.nextAttempt → attempt ≤ state'.io.nextAttempt →
            state'.scope.isCurrent token = true) := by
        by_cases before : attempt ≤ state.io.nextAttempt
        · exact ⟨token, paced, stage,
            fun _ => (paced before).step tracked backed cleaning permit before step,
            fun unbegun => absurd before unbegun⟩
        · by_cases begun : attempt ≤ state'.io.nextAttempt
          · obtain ⟨other, fits, fresh⟩ := tracked.begins backed before begun step
            exact ⟨other, fun late => absurd late before, stage.retoken before, fun _ => fits,
              fun _ _ => fresh⟩
          · exact ⟨token, paced, stage, fun late => absurd late begun,
              fun _ late => absurd late begun⟩
      refine ⟨token, paced', ?_⟩
      cases Program.step_of_eq_some step with
      | @handler handler rest queued endpoint =>
          have silent := Turn.run_silent options state.scope endpoint handler { io := state.io }
          have undelivered : delivered attempt (Turn.run options state.scope endpoint handler
              { io := state.io }).events = [] := by
            refine List.filterMap_eq_nil_iff.mpr fun event listed => ?_
            have other := silent.forall_mem (by simp) event listed
            cases event <;> first | rfl | cases other
          have noting : note options state (.handler endpoint) = handler.note options state.io := by
            simp [note, queued]
          show Stage attempt token (state.handled rest
            (Turn.run options state.scope endpoint handler { io := state.io }))
            (delivered attempt (eventsOf log) ++ delivered attempt (Turn.run options state.scope
              endpoint handler { io := state.io }).events) _
          rw [undelivered, List.append_nil, noting]
          exact stage.handled paced starts tracked backed.io queued
      | @job job rest queued verdict =>
          have noting : note options state (.job verdict) =
              if job.isCall then [.ended state.io.nextAttempt] else [] := by
            simp [note, queued]
          rw [noting]
          exact stage.performed paced cleaning queued verdict
      | delayed idle due =>
          have reconnects := run_delayed plain _ (List.mem_of_getElem? due)
          simpa [note] using stage.due reconnects idle
      | input accepted =>
          have accepts := accepts_of_eq_some accepted
          have stage' := stage.accepts accepts
          have undelivered : delivered attempt emitted = [] := by
            cases accepts <;> rfl
          simpa [undelivered, note] using stage'

theorem Stage.begun {state : State} {told : List Report} {notes : List Note}
    (stage : Stage attempt token state told notes) : Begun (decodedOf attempt notes) told := by
  cases stage with
  | unborn fresh absent away silent undecoded =>
      simp only [List.append_eq_nil_iff] at silent
      rw [silent.1.1]
      exact begun_nil
  | current begun fresh current alive line unclosed =>
      obtain ⟨mix, tail, line⟩ := line
      exact (line.begun unclosed).of_begins (List.prefix_append ..)
  | left begun fresh settled away reported complete =>
      exact reported.of_begins (List.prefix_append ..)
  | stale begun outdated ended reported complete => exact reported

/-- Behind `closed` nothing is missing. -/
theorem Stage.closed {state : State} {told : List Report} {notes : List Note}
    (stage : Stage attempt token state told notes) (kept : .discarded attempt ∉ notes)
    (closed : .closed ∈ told) : contents told = decodedOf attempt notes := by
  cases stage with
  | unborn fresh absent away silent undecoded =>
      simp only [List.append_eq_nil_iff] at silent
      simp [silent.1.1] at closed
  | current begun fresh current alive line unclosed =>
      exact absurd (List.mem_append_left _ closed) unclosed
  | left begun fresh settled away reported complete =>
      have finished := (complete.resolve_left kept).1
      have all := finished.all closed
      rw [all, List.append_nil] at finished
      exact finished.contents
  | stale begun outdated ended reported complete =>
      exact ((complete closed).resolve_left kept).1.contents

/-- At rest nothing is missing. -/
theorem Stage.rested {state : State} {told : List Report} {notes : List Note}
    (stage : Stage attempt token state told notes) (kept : .discarded attempt ∉ notes)
    (unended : ∀ last, .ended last ∈ notes → last < attempt)
    (handlers : state.handlers = []) (jobs : state.jobs = []) :
    contents told = decodedOf attempt notes := by
  have unnoticed : notices attempt state.jobs = [] := by
    rw [jobs]
    rfl
  have unposted : posted attempt state.handlers ++ signalled attempt state.jobs = [] := by
    rw [handlers, jobs]
    rfl
  cases stage with
  | unborn fresh absent away silent undecoded =>
      simp only [List.append_eq_nil_iff] at silent
      rw [silent.1.1, undecoded]
      rfl
  | current begun fresh current alive line unclosed =>
      obtain ⟨mix, tail, line⟩ := line
      have whole := line.line
      rw [unnoticed, unposted, List.append_nil, List.append_nil] at whole
      rw [unnoticed, List.append_nil] at unclosed
      -- A shut socket has `closed` in line, and all of the line is delivered.
      have ending := line.tail
      split at ending
      · rw [whole, ending, List.append_nil, contents_connected, line.content]
      · obtain ⟨late, rfl⟩ := ending
        simp [whole] at unclosed
  | left begun fresh settled away reported complete =>
      have finished := (complete.resolve_left kept).1
      rw [unnoticed, List.append_nil] at finished
      exact finished.contents
  | stale begun outdated ended reported complete =>
      obtain ⟨last, noted, bound⟩ := ended
      have earlier := unended last noted
      omega

/-- Where calls are served whole, the notifications of a connection are the beginning of
`connected`, a mix of messages and errors, and `closed`; their messages are the first ones
that were decoded, in this order.  None is missing in front of `closed`, or at rest, while
`close_peer` has not dropped the connection and no call has ended it. -/
theorem connection_traced (options : CommonOptions) {log : List (Event ⊕ Note)} {state : State}
    (run : Run (tracedSystem options) Whole initial log state) {attempt : Nat}
    (positive : 0 < attempt) :
    (∃ mix, delivered attempt (eventsOf log) <+: .connected :: mix ++ [.closed] ∧
      .connected ∉ mix ∧ .closed ∉ mix) ∧
    contents (delivered attempt (eventsOf log)) <+: decodedOf attempt (notesOf log) ∧
    (.discarded attempt ∉ notesOf log →
      .closed ∈ delivered attempt (eventsOf log) ∨
        (state.handlers = [] ∧ state.jobs = [] ∧
          ∀ last, .ended last ∈ notesOf log → last < attempt) →
      contents (delivered attempt (eventsOf log)) = decodedOf attempt (notesOf log)) := by
  obtain ⟨token, _, stage⟩ := run_stage run positive
  obtain ⟨mix, begins, mixed, content⟩ := stage.begun
  refine ⟨⟨mix, begins, mixed.unheralded, mixed.unclosed⟩, content, fun kept reached => ?_⟩
  rcases reached with closed | ⟨handlers, jobs, unended⟩
  · exact stage.closed kept closed
  · exact stage.rested kept unended handlers jobs

/-- A frame is read, and the remote end closes the connection. -/
theorem connection_traced_remote_close :
    ∃ log state, Run (tracedSystem {}) Whole initial log state ∧
      delivered 1 (eventsOf log) = [.connected, .message (.received [7]), .closed] ∧
      (∃ mix, delivered 1 (eventsOf log) <+: .connected :: mix ++ [.closed] ∧
        .connected ∉ mix ∧ .closed ∉ mix) ∧
      contents (delivered 1 (eventsOf log)) <+: decodedOf 1 (notesOf log) ∧
      contents (delivered 1 (eventsOf log)) = decodedOf 1 (notesOf log) := by
  let credentials : PeerCredentials := ⟨none, none, none⟩
  let handlers (count : Nat) : List Label := List.replicate count (.handler .constructed)
  let jobs (count : Nat) : List Label := List.replicate count (.job true)
  let labels : List Label :=
    [.input .asyncStart] ++ jobs 2 ++ handlers 1 ++
      [.input (.connectCompletes 1 (.socket credentials))] ++ handlers 1 ++ jobs 1 ++
      handlers 3 ++ jobs 1 ++
      [.input (.peerCompletes 1 (.read .success [0, 0, 0, 2]))] ++ handlers 2 ++
      [.input (.peerCompletes 1 (.read .success [1, 7]))] ++ handlers 4 ++ jobs 2 ++
      handlers 1 ++ jobs 1 ++
      [.input (.peerCompletes 1 (.read .eof []))] ++ handlers 4 ++ jobs 1 ++ handlers 1 ++ jobs 1
  have possible : (Run.steps? (tracedSystem {}) Whole initial labels).isSome = true := by
    decide +kernel
  let reached := Run.result (tracedSystem {}) Whole initial labels
  have seen : delivered 1 (eventsOf reached.2) =
        [.connected, .message (.received [7]), .closed] ∧ .discarded 1 ∉ notesOf reached.2 := by
    decide +kernel
  have run : Run (tracedSystem {}) Whole initial reached.2 reached.1 := Run.of_isSome possible
  clear possible
  clear_value reached
  obtain ⟨told, kept⟩ := seen
  obtain ⟨begins, content, complete⟩ := connection_traced {} run Nat.one_pos
  exact ⟨reached.2, reached.1, run, told, begins, content, complete kept (.inl (by simp [told]))⟩

end

end UnixDomainStream.Client
