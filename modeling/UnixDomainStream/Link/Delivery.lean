import UnixDomainStream.Link.Receiving
import UnixDomainStream.Peer.Carried

/-!
# What arrives at the other end

The bytes that one end has sent are those that the other end has taken and those that are
still in the pipe.  Framed bodies tell apart where they end, so the frames read are the
first of the frames accepted, whatever either end does meanwhile.
-/

namespace UnixDomainStream.Link

open Library Protocol Grammar Peer

variable {options : Side → CommonOptions} {log : List Event} {state state' : State} {side : Side}
variable {label : Label} {events : List Event}

/-- How a step of a side changes the pipes before the peer makes it. -/
inductive Begins (state : State) (side : Side) (label : Peer.Label) (pipes : Side → Pipe) :
    Prop where
  | read {errorCode : ErrorCode} {bytes : Bytes} (own : label = .completes (.read errorCode bytes))
      (front : bytes <+: (state.pipes side.other).bytes)
      (ended : errorCode = .eof → bytes = (state.pipes side.other).bytes ∧
        (state.peers side.other).peer.isOpen = false)
      (same : pipes = Function.update state.pipes side.other
        { state.pipes side.other with
          bytes := (state.pipes side.other).bytes.drop bytes.length })
  | other (unread : ∀ errorCode bytes, label ≠ .completes (.read errorCode bytes))
      (whole : label = .completes (.write .success) →
        (state.peers side).peer.writing.map List.length = some (state.pipes side).progress)
      (same : pipes = state.pipes)

theorem begins_of_eq_some {label : Peer.Label} {pipes : Side → Pipe}
    (begins : pipes? state side label = some pipes) : Begins state side label pipes := by
  cases label with
  | completes completion =>
      cases completion with
      | timer name =>
          cases begins
          exact .other (by simp) (by simp) rfl
      | read errorCode bytes =>
          simp only [pipes?, complete?] at begins
          split at begins
          case isTrue can =>
            cases begins
            exact .read rfl can.1 can.2 rfl
          case isFalse => cases begins
      | write errorCode =>
          simp only [pipes?, complete?] at begins
          split at begins
          case isTrue can =>
            cases begins
            refine .other (by simp) ?_ rfl
            rintro own
            cases own
            exact can rfl
          case isFalse => cases begins
  | handler =>
      cases begins
      exact .other (by simp) (by simp) rfl
  | asyncClose completion =>
      cases begins
      exact .other (by simp) (by simp) rfl
  | asyncPushFrame frame =>
      cases begins
      exact .other (by simp) (by simp) rfl

/-- The pipe that the side itself writes. -/
theorem Begins.own_pipe {label : Peer.Label} {pipes : Side → Pipe}
    (begins : Begins state side label pipes) : pipes side = state.pipes side := by
  cases begins with
  | read own front ended same => rw [same, Function.update_of_ne side.ne_other]
  | other unread whole same => rw [same]

theorem settle_own (side : Side) (peer : Peer) (pipes : Side → Pipe) :
    settle side peer pipes side = { pipes side with
      progress := if peer.writing.isSome then (pipes side).progress else 0 } :=
  Function.update_self ..

theorem settle_other {other : Side} (different : side ≠ other) (peer : Peer)
    (pipes : Side → Pipe) : settle other peer pipes side = pipes side :=
  Function.update_of_ne different ..

/-- One direction of a link: `side` writes, and the other side reads. -/
structure Direction (options : Side → CommonOptions) (log : List Event) (state : State)
    (side : Side) : Prop where
  outgoing : Outgoing (options side) (recorded side log) (state.peers side)
  stream : ∃ consumed,
    Sending (recorded side log) (state.peers side) (state.pipes side).progress
      (consumed ++ (state.pipes side).bytes) ∧
    Receiving (state.peers side.other) (framesRead side.other log) consumed
  known : ∀ body ∈ framesRead side.other log, Framable body

theorem initial_direction (options : Side → CommonOptions) (side : Side) :
    Direction options [] initial side where
  outgoing := started_outgoing (options side)
  stream := ⟨[], .rest rfl rfl rfl, .starting rfl rfl rfl rfl⟩
  known := by simp [framesRead]

/-- A step of the writing end. -/
theorem Direction.writes (direction : Direction options log state side) {label : Peer.Label}
    {pipes : Side → Pipe} {peer : Peer.State} {events : List Peer.Event}
    (begins : Begins state side label pipes)
    (step : (Peer.system (options side)).step? (state.peers side) label = some (peer, events)) :
    Direction options
      (log ++ (events.map (.peer side) ++ (bodies (state.peers side) label).map (.frameRead side)))
      { peers := Function.update state.peers side peer, pipes := settle side peer.peer pipes }
      side := by
  obtain ⟨outgoing, ⟨consumed, sending, receiving⟩, known⟩ := direction
  have own := (@recorded_own side events (bodies (state.peers side) label)).1
  have elsewhere := (recorded_other side.ne_other events (bodies (state.peers side) label)).2
  have whole : label = .completes (.write .success) →
      (state.peers side).peer.writing.map List.length = some (state.pipes side).progress := by
    rintro rfl
    cases begins with
    | read own => cases own
    | other unread whole same => exact whole rfl
  constructor
  case outgoing =>
    rw [recorded_append, own]
    dsimp only
    rw [Function.update_self]
    exact outgoing.step step
  case stream =>
    refine ⟨consumed, ?_, ?_⟩
    · dsimp only
      rw [recorded_append, own, settle_own, begins.own_pipe, Function.update_self]
      exact sending.step outgoing step whole
    · rw [framesRead_append, elsewhere, List.append_nil]
      dsimp only
      rw [Function.update_of_ne side.other_ne]
      exact receiving
  case known =>
    rw [framesRead_append, elsewhere, List.append_nil]
    exact known

/-- A step of the reading end. -/
theorem Direction.reads (direction : Direction options log state side) {label : Peer.Label}
    {pipes : Side → Pipe} {peer : Peer.State} {events : List Peer.Event}
    (begins : Begins state side.other label pipes)
    (step : (Peer.system (options side.other)).step? (state.peers side.other) label =
      some (peer, events)) :
    Direction options
      (log ++ (events.map (.peer side.other) ++
        (bodies (state.peers side.other) label).map (.frameRead side.other)))
      { peers := Function.update state.peers side.other peer
        pipes := settle side.other peer.peer pipes } side := by
  obtain ⟨outgoing, ⟨consumed, sending, receiving⟩, known⟩ := direction
  have own := (@recorded_own side.other events (bodies (state.peers side.other) label)).2
  have elsewhere := (recorded_other side.other_ne events (bodies (state.peers side.other) label)).1
  have drained : pipes side = { state.pipes side with
      bytes := (state.pipes side).bytes.drop (taken label).length } ∧
        taken label <+: (state.pipes side).bytes := by
    cases begins with
    | read own front ended same =>
        rw [Side.other_other] at front same
        rw [same, own, Function.update_self]
        exact ⟨rfl, front⟩
    | other unread whole same =>
        have none : taken label = [] := by
          unfold taken
          split
          case h_1 errorCode bytes => exact absurd rfl (unread errorCode bytes)
          · rfl
        rw [same, none]
        exact ⟨rfl, List.nil_prefix⟩
  obtain ⟨drained, rest, front⟩ := drained
  constructor
  case outgoing =>
    rw [recorded_append, elsewhere, List.append_nil]
    dsimp only
    rw [Function.update_of_ne side.ne_other]
    exact outgoing
  case stream =>
    refine ⟨consumed ++ taken label, ?_, ?_⟩
    · dsimp only
      rw [recorded_append, elsewhere, List.append_nil, settle_other side.ne_other,
        Function.update_of_ne side.ne_other, drained]
      dsimp only
      rw [← front, List.drop_left, List.append_assoc, front]
      exact sending
    · rw [framesRead_append, own]
      dsimp only
      rw [Function.update_self]
      exact receiving.step step
  case known =>
    rw [framesRead_append, own]
    intro body member
    rcases List.mem_append.mp member with earlier | last
    · exact known body earlier
    · exact receiving.framable body last

theorem Direction.step (direction : Direction options log state side)
    (step : (system options).step? state label = some (state', events)) :
    Direction options (log ++ events) state' side := by
  cases step_of_eq_some step with
  | @peer other label pipes peer events begins stepped =>
      rcases Side.eq_or_other other side with rfl | rfl
      · exact direction.writes (begins_of_eq_some begins) stepped
      · exact direction.reads (begins_of_eq_some begins) stepped
  | @transmit other count frame writing room =>
      rw [List.append_nil]
      obtain ⟨outgoing, ⟨consumed, sending, receiving⟩, known⟩ := direction
      refine ⟨outgoing, ⟨consumed, ?_, receiving⟩, known⟩
      by_cases same : side = other
      · subst same
        dsimp only
        rw [Function.update_self, ← List.append_assoc]
        exact sending.transmit writing room
      · dsimp only
        rw [Function.update_of_ne same]
        exact sending

theorem run_direction {permitted : State → Label → Prop}
    (run : Run (system options) permitted initial log state) (side : Side) :
    Direction options log state side := by
  induction run with
  | refl => exact initial_direction options side
  | next _ _ step ih => exact ih.step step

/-! ## In order, and nothing made up -/

/-- The frames that a peer has accepted, by their bodies. -/
theorem exists_bodies {frames : List Bytes}
    (valid : ∀ frame ∈ frames, ∃ body, Framable body ∧ frame = framed body) :
    ∃ bodies : List Bytes, frames = bodies.map framed ∧ ∀ body ∈ bodies, Framable body := by
  induction frames with
  | nil => exact ⟨[], rfl, by simp⟩
  | cons frame rest ih =>
      obtain ⟨body, known, rfl⟩ := valid frame List.mem_cons_self
      obtain ⟨bodies, rfl, all⟩ := ih fun frame member => valid frame (List.mem_cons_of_mem _ member)
      exact ⟨body :: bodies, rfl, List.forall_mem_cons.mpr ⟨known, all⟩⟩

/-- The bodies read are the first of the bodies accepted. -/
theorem Direction.read_begins (direction : Direction options log state side)
    {bodies : List Bytes} (same : accepted (recorded side log) = bodies.map framed)
    (known : ∀ body ∈ bodies, Framable body) : framesRead side.other log <+: bodies := by
  obtain ⟨consumed, sending, receiving⟩ := direction.stream
  have sent : consumed ++ (state.pipes side).bytes <+: bodies.flatMap framed := by
    have begins := sending.begins direction.outgoing
    rwa [same, ← List.flatMap_def] at begins
  exact framed_prefixCode.of_flatMap_begins direction.known known
    ((receiving.begins.trans (List.prefix_append ..)).trans sent)

/-- A step of a peer reports what the bodies carry that it takes. -/
theorem step_carries {options : CommonOptions} {state state' : Peer.State} {label : Peer.Label}
    {events : List Peer.Event}
    (step : (Peer.system options).step? state label = some (state', events)) :
    (signals events).filter Signal.carries =
      (bodies state label).filterMap (carried? options) := by
  cases Peer.step_of_eq_some step with
  | @handler handler rest queued =>
      rw [signals_handlerEvents]
      by_cases read : ∃ body, handler = .readBody .success body ∧
          body.length = state.peer.readBody.length
      · obtain ⟨body, rfl, whole⟩ := read
        have carrying := @PeerTurn.run_readBody_carrying options state.peer body whole
        rw [PeerTurn.carrying] at carrying
        rw [carrying]
        simp only [bodies, queued, whole, if_true, List.filterMap_cons, List.filterMap_nil]
        cases carried? options body <;> rfl
      · have carrying := @PeerTurn.run_carrying_nil options handler state.peer
          (fun body own whole => read ⟨body, own, whole⟩)
        rw [PeerTurn.carrying] at carrying
        rw [carrying]
        have none : bodies state .handler = [] := by
          simp only [bodies, queued]
          split
          case h_1 body more same =>
            cases same
            exact if_neg fun whole => read ⟨body, rfl, whole⟩
          · rfl
        rw [none]
        rfl
  | asyncClose completion => rfl
  | asyncPushFrame frame => rfl
  | completes completed =>
      rw [signals_writtenFrames]
      rfl

theorem run_reported {permitted : State → Label → Prop}
    (run : Run (system options) permitted initial log state) (side : Side) :
    (signals (recorded side log)).filter Signal.carries =
      (framesRead side log).filterMap (carried? (options side)) := by
  induction run with
  | refl => rfl
  | next run _ step ih =>
      rw [recorded_append, framesRead_append, signals_append, List.filter_append,
        List.filterMap_append, ih]
      cases step_of_eq_some step with
      | @peer other label pipes peer events begins stepped =>
          by_cases own : other = side
          · subst own
            rw [(recorded_own events _).1, (recorded_own events _).2, step_carries stepped]
          · rw [(recorded_other own events _).1, (recorded_other own events _).2]
            rfl
      | transmit writing room => rfl

/-- The bodies of messages that fit carry the messages. -/
theorem filterMap_carried {options : CommonOptions} (noWrap : Reader.NoWrap options)
    {bodies : List Bytes} {messages : List RoundTrip.Message}
    (same : bodies.map framed = messages.map RoundTrip.Message.frame)
    (fits : ∀ message ∈ messages, message.Fits options.maxMessageSize) :
    bodies.filterMap (carried? options) = messages.flatMap RoundTrip.Message.event := by
  induction messages generalizing bodies with
  | nil =>
      rw [List.map_eq_nil_iff.mp same]
      rfl
  | cons message rest ih =>
      cases bodies with
      | nil => cases same
      | cons body more =>
          obtain ⟨first, others⟩ := List.cons.inj same
          have content := carried?_of_frame noWrap (fits message List.mem_cons_self) first.symm
          have tail := ih others fun message listed => fits message (List.mem_cons_of_mem _ listed)
          rw [List.flatMap_cons, ← tail, ← content, List.filterMap_cons]
          cases carried? options body <;> rfl

/-- What the reader of a direction takes and reports is what the writer has accepted. -/
structure Delivered (options : Side → CommonOptions) (log : List Event) (side : Side) : Prop where
  ordered : (framesRead side.other log).map framed <+: accepted (recorded side log)
  reported : (signals (recorded side.other log)).filter Signal.carries =
    (framesRead side.other log).filterMap (carried? (options side.other))
  /-- Messages that fit the limit of the reader arrive as they were sent. -/
  faithful : Reader.NoWrap (options side.other) → ∀ messages : List RoundTrip.Message,
    accepted (recorded side log) = messages.map RoundTrip.Message.frame →
    (∀ message ∈ messages, message.Fits (options side.other).maxMessageSize) →
    (signals (recorded side.other log)).filter Signal.carries <+:
      messages.flatMap RoundTrip.Message.event

/-- Whatever is sent, transmitted, closed or broken off in whatever order, what one end
reports are the first of the frames that the other end has queued. -/
theorem link_delivers (options : Side → CommonOptions) {log : List Event} {state : State}
    (run : Run (system options) (fun _ _ => True) initial log state) (side : Side) :
    Delivered options log side := by
  have direction := run_direction run side
  have reported := run_reported run side.other
  obtain ⟨bodies, same, known⟩ := exists_bodies direction.outgoing.valid
  have begins := direction.read_begins same known
  constructor
  case ordered => exact same ▸ begins.map framed
  case reported => exact reported
  case faithful =>
    intro noWrap messages sent fits
    rw [reported, ← filterMap_carried noWrap (same.symm.trans sent) fits]
    exact begins.filterMap _

/-- A message crosses the link. -/
theorem link_delivers_user_data :
    ∃ log state, Run (system fun _ => {}) (fun _ _ => True) initial log state ∧
      (signals (recorded .far log)).filter Signal.carries = [.received [7]] ∧
      Delivered (fun _ => {}) log .near := by
  let labels : List Label :=
    [.peer .near .handler, .peer .far .handler,
      .peer .near (.asyncPushFrame (makeUserDataFrame [7])), .peer .near .handler,
      .transmit .near 4, .peer .far (.completes (.read .success [0, 0, 0, 2])),
      .peer .far .handler, .transmit .near 2, .peer .near (.completes (.write .success)),
      .peer .far (.completes (.read .success [1, 7])), .peer .far .handler, .peer .far .handler]
  have computed : (Run.steps? (system fun _ => {}) (fun _ _ => True) initial labels).map
      (fun result => (signals (recorded .far result.2)).filter Signal.carries) =
        some [.received [7]] := by
    decide +kernel
  obtain ⟨⟨state, log⟩, ran, same⟩ := Option.map_eq_some_iff.mp computed
  have run := Run.of_steps? ran
  exact ⟨log, state, run, same, link_delivers _ run .near⟩

/-! ## Nothing lost -/

/-- A whole frame is longer than what an unfinished read has taken of it. -/
theorem Receiving.unfinished {state : Peer.State} {read : List Bytes} {consumed bytes : Bytes}
    {operation : PendingRead} (receiving : Receiving state read consumed)
    (reading : state.peer.reading = some operation) (short : bytes.length < operation.size)
    {body : Bytes} (known : Framable body) :
    ¬ read.flatMap framed ++ framed body <+: consumed ++ bytes := by
  intro begins
  cases receiving with
  | starting queued idle => simp [idle] at reading
  | announced queued idle => simp [idle] at reading
  | complete queued idle => simp [idle] at reading
  | stopped queued idle => simp [idle] at reading
  | header queued outstanding same =>
      rw [outstanding, Option.some_inj] at reading
      subst reading
      rw [same, List.prefix_append_right_inj] at begins
      have length := begins.length_le
      rw [framed_length] at length
      simp only [PendingRead.size] at short
      omega
  | @body header queued outstanding size nonempty full same =>
      rw [outstanding, Option.some_inj] at reading
      subst reading
      rw [same, List.append_assoc, List.prefix_append_right_inj] at begins
      have announced : header = BigEndian.toBytes 4 body.length := by
        obtain ⟨more, equal⟩ := begins
        rw [framed, List.append_assoc] at equal
        exact (List.append_inj equal ((BigEndian.toBytes_length 4 _).trans full.symm)).1.symm
      have length := begins.length_le
      have sized : (decodeUint32 header).toNat = body.length := by
        rw [decodeUint32_eq full, announced, BigEndian.ofBytes_toBytes 4 _ known.2]
      rw [framed_length, List.length_append, full] at length
      simp only [PendingRead.size] at short
      omega

/-- A read is never outstanding for no bytes. -/
theorem Receiving.size_pos {state : Peer.State} {read : List Bytes} {consumed : Bytes}
    {operation : PendingRead} (receiving : Receiving state read consumed)
    (reading : state.peer.reading = some operation) : 0 < operation.size := by
  cases receiving with
  | starting queued idle => simp [idle] at reading
  | announced queued idle => simp [idle] at reading
  | complete queued idle => simp [idle] at reading
  | stopped queued idle => simp [idle] at reading
  | header queued outstanding =>
      rw [outstanding, Option.some_inj] at reading
      subst reading
      decide
  | body queued outstanding size nonempty =>
      rw [outstanding, Option.some_inj] at reading
      subst reading
      exact List.length_pos_iff.mpr nonempty

/-- While a read is outstanding that finds less than it needs, the frames written are the
frames read. -/
theorem Direction.written_begins (direction : Direction options log state side)
    {operation : PendingRead} (reading : (state.peers side.other).peer.reading = some operation)
    (short : (state.pipes side).bytes.length < operation.size) :
    written (recorded side log) <+: (framesRead side.other log).map framed := by
  obtain ⟨bodies, same, known⟩ := exists_bodies direction.outgoing.valid
  have read := (direction.read_begins same known).map framed
  obtain ⟨consumed, sending, receiving⟩ := direction.stream
  have written := direction.outgoing.written_begins
  rw [same] at written
  rcases List.prefix_or_prefix_of_prefix written read with fine | ⟨more, longer⟩
  · exact fine
  · cases more with
    | nil => exact ⟨[], by rw [← longer, List.append_nil, List.append_nil]⟩
    | cons frame more =>
        have frames : frame ∈ bodies.map framed := by
          refine written.subset ?_
          rw [← longer]
          simp
        obtain ⟨body, member, rfl⟩ := List.mem_map.mp frames
        refine absurd ?_ (Receiving.unfinished receiving reading short (known body member))
        refine List.IsPrefix.trans ⟨more.flatten, ?_⟩ sending.covers
        rw [← longer, List.flatten_append, List.flatten_cons, List.flatMap_def, List.append_assoc]

/-- What the reader of a direction has when the stream ends or runs dry. -/
structure Lossless (options : Side → CommonOptions) (log : List Event) (state : State)
    (side : Side) : Prop where
  /-- At the end of the stream everything has been read that was written completely. -/
  ended : ∀ bytes state' events,
    (system options).step? state (.peer side.other (.completes (.read .eof bytes))) =
      some (state', events) →
    (state.peers side).peer.isOpen = false ∧
      written (recorded side log) <+: (framesRead side.other log).map framed ∧
      (written (recorded side log) = accepted (recorded side log) →
        (framesRead side.other log).map framed = accepted (recorded side log))
  /-- A reader that waits for a frame in front of an empty pipe has read everything. -/
  waiting : (state.pipes side).bytes = [] →
    (state.peers side.other).peer.reading ≠ none →
    written (recorded side log) <+: (framesRead side.other log).map framed ∧
      ((state.peers side).peer.writeQueue = [] →
        (framesRead side.other log).map framed = accepted (recorded side log))

/-- Between the two ends nothing is lost. -/
theorem link_lossless (options : Side → CommonOptions) {log : List Event} {state : State}
    (run : Run (system options) (fun _ _ => True) initial log state) (side : Side) :
    Lossless options log state side := by
  have direction := run_direction run side
  have ordered := (link_delivers options run side).ordered
  have equal : written (recorded side log) <+: (framesRead side.other log).map framed →
      written (recorded side log) = accepted (recorded side log) →
      (framesRead side.other log).map framed = accepted (recorded side log) := by
    intro covered all
    rw [all] at covered
    exact ordered.eq_of_length_le covered.length_le
  constructor
  case ended =>
    intro bytes state' events step
    cases step_of_eq_some step with
    | peer begins stepped =>
        have completed := Peer.step_of_eq_some stepped
        cases begins_of_eq_some begins with
        | other unread => exact absurd rfl (unread _ _)
        | read own front ended same =>
            cases own
            rw [Side.other_other] at ended
            obtain ⟨all, closed⟩ := ended rfl
            cases completed with
            | completes completed =>
                cases completes_of_eq_some completed with
                | read reading genuine filled =>
                    have short : bytes.length < _ := (filled.resolve_left (by simp)).2
                    rw [all] at short
                    have covered := direction.written_begins reading short
                    exact ⟨closed, covered, equal covered⟩
  case waiting =>
    intro empty reading
    obtain ⟨operation, reading⟩ := Option.ne_none_iff_exists'.mp reading
    obtain ⟨_, _, receiving⟩ := direction.stream
    have covered := direction.written_begins reading
      (empty ▸ Receiving.size_pos receiving reading)
    refine ⟨covered, fun drained => equal covered ?_⟩
    have outbox := direction.outgoing.queueing.outbox
    have idle : .success ∉ writeCodes (state.peers side).handlers :=
      fun queued => outbox.busy (List.ne_nil_of_mem queued) drained
    rw [outbox.pending idle, drained, List.append_nil]

/-- A message is read before the end of the stream. -/
theorem link_lossless_closed :
    ∃ log state, Run (system fun _ => {}) (fun _ _ => True) initial log state ∧
      written (recorded .near log) = [makeUserDataFrame [7]] ∧
      (framesRead .far log).map framed = [makeUserDataFrame [7]] ∧
      ((system fun _ => {}).step? state
        (.peer .far (.completes (.read .eof [])))).isSome ∧
      Lossless (fun _ => {}) log state .near := by
  let labels : List Label :=
    [.peer .near .handler, .peer .far .handler,
      .peer .near (.asyncPushFrame (makeUserDataFrame [7])), .peer .near .handler,
      .transmit .near 6, .peer .near (.completes (.write .success)),
      .peer .near .handler, .peer .near (.asyncClose true), .peer .near .handler,
      .peer .near .handler,
      .peer .far (.completes (.read .success [0, 0, 0, 2])), .peer .far .handler,
      .peer .far (.completes (.read .success [1, 7])), .peer .far .handler, .peer .far .handler]
  have computed : (Run.steps? (system fun _ => {}) (fun _ _ => True) initial labels).map
      (fun result => (written (recorded .near result.2), (framesRead .far result.2).map framed,
        ((system fun _ => {}).step? result.1 (.peer .far (.completes (.read .eof [])))).isSome)) =
        some ([makeUserDataFrame [7]], [makeUserDataFrame [7]], true) := by
    decide +kernel
  obtain ⟨⟨state, log⟩, ran, same⟩ := Option.map_eq_some_iff.mp computed
  have run := Run.of_steps? ran
  obtain ⟨sent, rest⟩ := Prod.mk.inj same
  obtain ⟨read, ends⟩ := Prod.mk.inj rest
  exact ⟨log, state, run, sent, read, ends, link_lossless _ run .near⟩

end UnixDomainStream.Link
