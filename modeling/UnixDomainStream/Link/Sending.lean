import UnixDomainStream.Acceptance
import UnixDomainStream.Library.PrefixCode
import UnixDomainStream.Link
import UnixDomainStream.Peer.Writes

/-!
# What one end has written

The bytes of an end in the order in which they went into its pipe: the frames whose writes
have completed, and what is there of the frame being written.  A write that fails is the
last one, because the socket is closed before another frame is begun.
-/

namespace UnixDomainStream

open Library Protocol Grammar

namespace PeerTurn

variable {options : CommonOptions} {handler : PeerHandler} {turn after : PeerTurn}

/-- What a piece does to the writing side of a peer. -/
inductive Effect (options : CommonOptions) (handler : PeerHandler) (turn after : PeerTurn) :
    Prop where
  | same (isOpen : after.peer.isOpen = turn.peer.isOpen)
      (writing : after.peer.writing = turn.peer.writing)
      (writeQueue : after.peer.writeQueue = turn.peer.writeQueue)
  | shut (isOpen : after.peer.isOpen = false) (writing : after.peer.writing = none)
      (writeQueue : after.peer.writeQueue = turn.peer.writeQueue)
  /-- A frame that passes the checks goes behind the others, and starts the writing if
  there are none. -/
  | pushed {frame : Bytes} (valid : validOutgoingFrame options frame = true)
      (isOpen : turn.peer.isOpen = true ∧ after.peer.isOpen = true)
      (writeQueue : after.peer.writeQueue = turn.peer.writeQueue ++ [frame])
      (writing : after.peer.writing = turn.peer.writing ∧ turn.peer.writeQueue ≠ [] ∨
        turn.peer.writeQueue = [] ∧ after.peer.writing = some frame)
  | popped (own : handler = .write .success) (isOpen : after.peer.isOpen = turn.peer.isOpen)
      (writing : after.peer.writing = turn.peer.writing)
  | begun (own : handler = .write .success) (isOpen : after.peer.isOpen = true)

theorem Shuts.effect (shuts : Shuts turn after) : Effect options handler turn after :=
  .shut shuts.isOpen shuts.writing shuts.writeQueue

theorem handleError_effect (errorCode : ErrorCode) (turn : PeerTurn) :
    Effect options handler turn (turn.handleError errorCode) := by
  by_cases aborted : errorCode = .operationAborted
  · rw [handleError, if_pos aborted]
    exact .same rfl rfl rfl
  · exact (handleError_shuts aborted turn).effect

theorem pushFrame_effect (frame : Bytes) (turn : PeerTurn) :
    Effect options handler turn (turn.pushFrame options frame) := by
  unfold pushFrame
  split
  case isFalse => exact .same rfl rfl rfl
  case isTrue opened =>
    split
    · exact handleError_effect _ turn
    case isFalse room =>
      have valid : validOutgoingFrame options frame = true := by
        simp only [Bool.not_eq_true', not_or, Bool.not_eq_false] at room
        exact room.1
      dsimp only
      split
      case isTrue empty =>
        have empty' : turn.peer.writeQueue = [] := List.isEmpty_iff.mp empty
        have starts := @write_starts
          { turn with peer := { turn.peer with writeQueue := turn.peer.writeQueue ++ [frame] } }
          frame [] (by simp [empty']) opened
        exact .pushed valid ⟨opened, starts.isOpen⟩ starts.writeQueue
          (.inr ⟨empty', starts.writing⟩)
      case isFalse full =>
        exact .pushed valid ⟨opened, opened⟩ rfl (.inl ⟨rfl, by simpa using full⟩)

theorem write_effect (own : handler = .write .success) (turn : PeerTurn) :
    Effect options handler turn turn.write := by
  cases queued : turn.peer.writeQueue with
  | nil =>
      rw [write_empty queued]
      exact .same rfl rfl rfl
  | cons front rest =>
      cases opened : turn.peer.isOpen with
      | true => exact .begun own (write_starts queued opened).isOpen
      | false =>
          rw [write_closed opened]
          exact .same rfl rfl rfl

theorem Piece.effect (piece : Piece options handler turn after) :
    Effect options handler turn after := by
  cases piece with
  | cancel name => exact .same rfl rfl rfl
  | asyncWait name => exact .same rfl rfl rfl
  | asyncRead operation =>
      unfold PeerTurn.asyncRead
      split <;> exact .same rfl rfl rfl
  | report early => exact .same rfl rfl rfl
  | handleError errorCode => exact handleError_effect errorCode turn
  | close => exact (close_shuts turn).effect
  | pushFrame frame => exact pushFrame_effect frame turn
  | update same => exact .same same.isOpen same.writing same.writeQueue
  | pop queued own => exact .popped own rfl rfl
  | write _ own => exact write_effect own turn

/-- A closed socket writes nothing. -/
def Mute (turn : PeerTurn) : Prop := turn.peer.isOpen = false → turn.peer.writing = none

theorem Effect.mute (effect : Effect options handler turn after) (mute : turn.Mute) : after.Mute := by
  intro closed
  cases effect with
  | same isOpen writing writeQueue => exact writing.trans (mute (isOpen.symm.trans closed))
  | shut isOpen writing writeQueue => exact writing
  | pushed valid isOpen writeQueue writing =>
      rw [isOpen.2] at closed
      cases closed
  | popped own isOpen writing => exact writing.trans (mute (isOpen.symm.trans closed))
  | begun own isOpen =>
      rw [isOpen] at closed
      cases closed

/-- Frames wait, and none of them is written. -/
def Stuck (turn : PeerTurn) : Prop := turn.peer.writing = none ∧ turn.peer.writeQueue ≠ []

theorem Effect.stuck (effect : Effect options handler turn after)
    (other : handler ≠ .write .success) (stuck : turn.Stuck) : after.Stuck := by
  cases effect with
  | same isOpen writing writeQueue => exact ⟨writing.trans stuck.1, writeQueue ▸ stuck.2⟩
  | shut isOpen writing writeQueue => exact ⟨writing, writeQueue ▸ stuck.2⟩
  | pushed valid isOpen writeQueue writing =>
      rcases writing with ⟨kept, _⟩ | ⟨empty, _⟩
      · exact ⟨kept.trans stuck.1, by simp [writeQueue]⟩
      · exact absurd empty stuck.2
  | popped own => exact absurd own other
  | begun own => exact absurd own other

/-- The queue has only grown, by frames that pass `validate_outgoing_frame`. -/
def Validated (options : CommonOptions) (before : Peer) (turn : PeerTurn) : Prop :=
  ∃ frames, turn.peer.writeQueue = before.writeQueue ++ frames ∧
    ∀ frame ∈ frames, validOutgoingFrame options frame = true

theorem Effect.validated {before : Peer} (effect : Effect options handler turn after)
    (other : handler ≠ .write .success) (validated : Validated options before turn) : Validated options before after := by
  obtain ⟨frames, grown, passed⟩ := validated
  cases effect with
  | same isOpen writing writeQueue => exact ⟨frames, writeQueue.trans grown, passed⟩
  | shut isOpen writing writeQueue => exact ⟨frames, writeQueue.trans grown, passed⟩
  | @pushed frame valid isOpen writeQueue writing =>
      refine ⟨frames ++ [frame], by rw [writeQueue, grown, List.append_assoc], ?_⟩
      intro other member
      rcases List.mem_append.mp member with earlier | last
      · exact passed other earlier
      · rw [List.mem_singleton.mp last]
        exact valid
  | popped own => exact absurd own other
  | begun own => exact absurd own other

end PeerTurn

/-! ## The frames that the checks let through -/

/-- A body whose length the header can hold. -/
def Framable (body : Bytes) : Prop := body ≠ [] ∧ body.length < 2 ^ 32

/-- A header with as many bytes behind it as it says. -/
theorem framed_of_header {header body : Bytes} (full : header.length = headerSize)
    (size : body.length = (decodeUint32 header).toNat) : header ++ body = framed body := by
  have written := BigEndian.toBytes_ofBytes header
  rw [full, headerSize] at written
  rw [framed, size, decodeUint32_eq full, written]

/-- A frame that may be sent is a header with the body behind it. -/
theorem framed_of_valid {options : CommonOptions} {frame : Bytes}
    (valid : validOutgoingFrame options frame = true) :
    ∃ body, Framable body ∧ frame = framed body := by
  unfold validOutgoingFrame at valid
  split at valid
  · cases valid
  case isFalse long =>
    rw [Nat.not_lt] at long
    dsimp only at valid
    split at valid
    · cases valid
    case isFalse sized =>
      simp only [not_or, Decidable.not_not, Nat.not_lt, headerSize, typeSize] at sized long
      have header : (frame.take 4).length = headerSize := by
        rw [List.length_take, headerSize]
        omega
      have bounded := (decodeUint32 (frame.take 4)).toNat_lt
      have size : (frame.drop 4).length = (decodeUint32 (frame.take 4)).toNat := by
        rw [List.length_drop, sized.1, sizeT, Nat.mod_eq_of_lt (by omega)]
        omega
      refine ⟨frame.drop 4, ⟨?_, by omega⟩, ?_⟩
      · intro none
        rw [none, List.length_nil] at size
        omega
      · rw [← framed_of_header header size, List.take_append_drop]

/-- Framed bodies tell apart where they end. -/
theorem framed_prefixCode : PrefixCode framed Framable where
  nonempty body known empty := by
    have length := congrArg List.length empty
    rw [framed_length, List.length_nil, headerSize] at length
    omega
  free first second left right begins := by
    obtain ⟨more, same⟩ := begins
    rw [← List.append_nil (framed second)] at same
    exact Acceptance.framed_injective left.2 right.2 same

namespace Peer

variable {options : CommonOptions} {log : List Event} {state state' : State} {label : Label}
variable {events : List Event}

/-! ## The frames of a run -/

/-- What every step keeps besides the discipline of the queue. -/
structure Outgoing (options : CommonOptions) (log : List Event) (state : State) : Prop where
  queueing : Queueing options log state
  mute : state.peer.isOpen = false → state.peer.writing = none
  valid : ∀ frame ∈ accepted log, ∃ body, Framable body ∧ frame = framed body

theorem Outgoing.step (outgoing : Outgoing options log state)
    (step : (system options).step? state label = some (state', events)) :
    Outgoing options (log ++ events) state' := by
  have queueing := step_queueing outgoing.queueing step
  cases step_of_eq_some step with
  | @handler handler rest queued =>
      have pieces := PeerTurn.run_pieces options handler { peer := state.peer }
      have mute := pieces.keeps _ (fun piece => piece.effect.mute) outgoing.mute
      refine ⟨queueing, mute, ?_⟩
      rw [accepted_append]
      cases handler with
      | write errorCode =>
          rw [accepted_write, List.append_nil]
          exact outgoing.valid
      | _ =>
          have start : PeerTurn.Validated options state.peer { peer := state.peer } :=
            ⟨[], by simp, by simp⟩
          obtain ⟨frames, grown, passed⟩ := pieces.keeps _
            (fun piece => piece.effect.validated (by simp)) start
          rw [accepted_handlerEvents (by simp) grown]
          intro frame member
          rcases List.mem_append.mp member with earlier | later
          · exact outgoing.valid frame earlier
          · exact framed_of_valid (passed frame later)
  | asyncClose completion =>
      rw [List.append_nil] at queueing ⊢
      exact ⟨queueing, outgoing.mute, outgoing.valid⟩
  | asyncPushFrame frame =>
      refine ⟨queueing, outgoing.mute, ?_⟩
      rw [accepted_append, show accepted [.called frame] = [] from rfl, List.append_nil]
      exact outgoing.valid
  | @completes completion peer handler completed =>
      have none : accepted (writtenFrames state.peer completion) = [] := by
        unfold writtenFrames
        split
        · rw [accepted, List.filterMap_map]
          exact List.filterMap_eq_nil_iff.mpr fun _ _ => rfl
        · rfl
      refine ⟨queueing, ?_, by rw [accepted_append, none, List.append_nil]; exact outgoing.valid⟩
      cases completes_of_eq_some completed with
      | timer waiting => exact outgoing.mute
      | read reading genuine filled => exact outgoing.mute
      | write writing genuine => exact fun _ => rfl

theorem started_outgoing (options : CommonOptions) : Outgoing options [] started :=
  ⟨started_queueing options, by simp [started], by simp [accepted]⟩

/-! ## The bytes of a run -/

/-- The frames whose writes have completed are the first of the frames accepted. -/
theorem Outgoing.written_begins (outgoing : Outgoing options log state) :
    written log <+: accepted log := by
  by_cases handled : .success ∈ writeCodes state.handlers
  · exact ⟨_, (outgoing.queueing.outbox.handled handled).symm⟩
  · exact ⟨_, (outgoing.queueing.outbox.pending handled).symm⟩

/-- The frame being written is the next one. -/
theorem Outgoing.next_frame (outgoing : Outgoing options log state) {frame : Bytes}
    (writing : state.peer.writing = some frame) : written log ++ [frame] <+: accepted log := by
  have outbox := outgoing.queueing.outbox
  have unhandled : .success ∉ writeCodes state.handlers := by
    have single := outbox.single
    rw [writing] at single
    have none : writeCodes state.handlers = [] :=
      List.eq_nil_of_length_eq_zero (by simp at single; simp [single])
    simp [none]
  obtain ⟨more, queued⟩ := outbox.front frame writing
  exact ⟨more, by rw [outbox.pending unhandled, queued]; simp⟩

/-- The bytes that a peer has put into its pipe, `progress` of them for the outstanding
write. -/
inductive Sending (log : List Event) (state : State) (progress : Nat) (sent : Bytes) : Prop where
  | writing {frame : Bytes} (outstanding : state.peer.writing = some frame)
      (room : progress ≤ frame.length)
      (same : sent = (written log).flatten ++ frame.take progress)
  | rest (idle : state.peer.writing = none) (fresh : progress = 0)
      (same : sent = (written log).flatten)
  /-- After a failed write nothing more is sent. -/
  | cut (idle : state.peer.writing = none)
      (spent : state.peer.isOpen = false ∨ ∃ code ∈ writeCodes state.handlers, code ≠ .success)
      (begins : sent <+: (accepted log).flatten) (covers : (written log).flatten <+: sent)

variable {progress : Nat} {sent : Bytes}

theorem flatten_begins {first second : List Bytes} (begins : first <+: second) :
    first.flatten <+: second.flatten := by
  obtain ⟨more, rfl⟩ := begins
  exact ⟨more.flatten, by simp⟩

theorem Sending.begins (sending : Sending log state progress sent)
    (outgoing : Outgoing options log state) : sent <+: (accepted log).flatten := by
  cases sending with
  | @writing frame outstanding room same =>
      have next := flatten_begins (outgoing.next_frame outstanding)
      rw [same]
      refine List.IsPrefix.trans ?_ next
      exact ⟨frame.drop progress, by simp⟩
  | rest idle fresh same => exact same ▸ flatten_begins outgoing.written_begins
  | cut idle spent begins covers => exact begins

theorem Sending.covers (sending : Sending log state progress sent) :
    (written log).flatten <+: sent := by
  cases sending with
  | writing outstanding room same => exact ⟨_, same.symm⟩
  | rest idle fresh same => exact same ▸ List.prefix_refl _
  | cut idle spent begins covers => exact covers

/-- More bytes of the frame go into the pipe. -/
theorem Sending.transmit (sending : Sending log state progress sent) {frame : Bytes} {count : Nat}
    (outstanding : state.peer.writing = some frame) (room : progress + count ≤ frame.length) :
    Sending log state (progress + count) (sent ++ (frame.drop progress).take count) := by
  cases sending with
  | writing outstanding' _ same =>
      rw [outstanding] at outstanding'
      cases outstanding'
      refine .writing outstanding room ?_
      rw [same, List.append_assoc, List.take_add]
  | rest idle fresh same => simp [outstanding] at idle
  | cut idle spent begins covers => simp [outstanding] at idle

/-- A closed socket stays closed. -/
theorem handler_closed {handler : PeerHandler} (closed : state.peer.isOpen = false) :
    (PeerTurn.run options handler { peer := state.peer }).peer.isOpen = false := by
  by_contra opened
  have before := (PeerTurn.run_shape options handler state.peer).isOpen (by simpa using opened)
  simp [closed] at before

/-- The handler of a failed write closes the socket. -/
theorem write_closes {errorCode : ErrorCode} {rest : List PeerHandler}
    (outgoing : Outgoing options log state) (queued : state.handlers = .write errorCode :: rest)
    (failed : errorCode ≠ .success) :
    (PeerTurn.run options (.write errorCode) { peer := state.peer }).peer.isOpen = false := by
  by_cases aborted : errorCode = .operationAborted
  · refine handler_closed (outgoing.queueing.outbox.aborted ?_)
    rw [queued, aborted]
    exact List.mem_cons_self
  · simp only [PeerTurn.run, PeerTurn.onWrite, ne_eq, failed, not_false_eq_true, if_true]
    exact (PeerTurn.handleError_shuts aborted _).isOpen

/-- After a failed write, or on a closed socket, no handler begins another write. -/
theorem Outgoing.stays_over {handler : PeerHandler} {rest : List PeerHandler} {turn : PeerTurn}
    (outgoing : Outgoing options log state) (queued : state.handlers = handler :: rest)
    (ran : turn = PeerTurn.run options handler { peer := state.peer })
    (idle : state.peer.writing = none)
    (spent : state.peer.isOpen = false ∨ ∃ code ∈ writeCodes state.handlers, code ≠ .success) :
    turn.peer.writing = none ∧ (turn.peer.isOpen = false ∨
      ∃ code ∈ writeCodes (rest ++ turn.posted), code ≠ .success) := by
  have pieces := ran ▸ PeerTurn.run_pieces options handler { peer := state.peer }
  have mute : turn.Mute := pieces.keeps _ (fun piece => piece.effect.mute) outgoing.mute
  rcases spent with closed | ⟨code, pending, failed⟩
  · have closed' : turn.peer.isOpen = false := ran ▸ handler_closed closed
    exact ⟨mute closed', .inl closed'⟩
  · by_cases own : ∃ errorCode, handler = .write errorCode
    · obtain ⟨errorCode, rfl⟩ := own
      have codes : writeCodes state.handlers = errorCode :: writeCodes rest := by
        rw [queued]
        rfl
      have alone := (codes ▸ outgoing.queueing.outbox).alone
      rw [codes, alone.1, List.mem_singleton] at pending
      have closed : turn.peer.isOpen = false := ran ▸ write_closes outgoing queued (pending ▸ failed)
      exact ⟨mute closed, .inl closed⟩
    · have other : ∀ errorCode, handler ≠ .write errorCode :=
        fun errorCode same => own ⟨errorCode, same⟩
      have stuck : PeerTurn.Stuck { peer := state.peer } :=
        ⟨idle, outgoing.queueing.outbox.busy (List.ne_nil_of_mem pending)⟩
      have kept : turn.Stuck :=
        pieces.keeps _ (fun piece => piece.effect.stuck (other .success)) stuck
      refine ⟨kept.1, .inr ⟨code, ?_, failed⟩⟩
      rw [writeCodes_append]
      refine List.mem_append_left _ ?_
      rw [queued, writeCodes, List.filterMap_cons] at pending
      cases handler with
      | write errorCode => exact absurd rfl (other errorCode)
      | _ => exact pending

/-- A handler may begin the next write, and may break off the outstanding one. -/
theorem Sending.handler (sending : Sending log state progress sent)
    (outgoing : Outgoing options log state)
    (step : (system options).step? state .handler = some (state', events)) :
    Sending (log ++ events) state' (if state'.peer.writing.isSome then progress else 0) sent := by
  have next := outgoing.step step
  have fronting := fun frame writing =>
    @Queueing.fronting options log state frame state' .handler events outgoing.queueing writing step
  cases step_of_eq_some step with
  | @handler handler rest queued =>
      have stays := fun idle spent => outgoing.stays_over queued rfl idle spent
      generalize ran : PeerTurn.run options handler { peer := state.peer } = turn at *
      have same' : written (log ++ handlerEvents state.peer handler turn) = written log := by
        rw [written_append, written_handlerEvents, List.append_nil]
      have grown : accepted log <+: accepted (log ++ handlerEvents state.peer handler turn) := by
        rw [accepted_append]
        exact List.prefix_append ..
      cases sending with
      | @writing frame outstanding room same =>
          rcases (fronting frame outstanding).2 with kept | closed | ⟨errorCode, own⟩
          · refine .writing kept (by rw [kept]; exact room) ?_
            rw [same', kept]
            exact same
          · refine .cut (next.mute closed) (.inl closed) ?_ (same' ▸ ⟨_, same.symm⟩)
            exact ((Sending.writing outstanding room same).begins outgoing).trans
              (flatten_begins grown)
          · cases own
      | rest idle fresh same =>
          dsimp only
          cases writing : turn.peer.writing with
          | none => exact .rest writing (by simp) (same'.symm ▸ same)
          | some frame =>
              refine .writing writing (by simp [fresh]) ?_
              rw [same', same, fresh]
              simp
      | cut idle spent begins covers =>
          obtain ⟨idle', spent'⟩ := stays idle spent
          exact .cut idle' spent' (begins.trans (flatten_begins grown)) (same'.symm ▸ covers)

/-- A step that leaves the socket and the write alone, with further handlers queued. -/
theorem Sending.kept (sending : Sending log state progress sent) {log' : List Event} {peer : Peer}
    (posted : List PeerHandler) (writing : peer.writing = state.peer.writing)
    (isOpen : peer.isOpen = state.peer.isOpen) (same' : written log' = written log)
    (grown : accepted log' = accepted log) :
    Sending log' { peer, handlers := state.handlers ++ posted }
      (if peer.writing.isSome then progress else 0) sent := by
  cases sending with
  | writing outstanding room same =>
      have outstanding' := writing.trans outstanding
      rw [outstanding']
      exact .writing outstanding' room (same' ▸ same)
  | rest idle fresh same => exact .rest (writing.trans idle) (by simp [fresh]) (same' ▸ same)
  | cut idle spent begins covers =>
      refine .cut (writing.trans idle) ?_ (grown ▸ begins) (same' ▸ covers)
      rcases spent with closed | ⟨code, pending, failed⟩
      · exact .inl (isOpen.trans closed)
      · exact .inr ⟨code, by rw [writeCodes_append]; exact List.mem_append_left _ pending, failed⟩

/-- A write completes, successfully only once its whole frame is sent. -/
theorem Sending.completes {errorCode : ErrorCode} {frame : Bytes}
    (sending : Sending log state progress sent) (outgoing : Outgoing options log state)
    (writing : state.peer.writing = some frame)
    (whole : errorCode = .success → state.peer.writing.map List.length = some progress) :
    Sending (log ++ writtenFrames state.peer (.write errorCode))
      { peer := { state.peer with writing := none }
        handlers := state.handlers ++ [.write errorCode] } 0 sent := by
  by_cases succeeded : errorCode = .success
  · subst succeeded
    have frames : written (log ++ writtenFrames state.peer (.write .success)) =
        written log ++ [frame] := by
      simp [writtenFrames, written, writing, Event.written?]
    refine .rest rfl rfl ?_
    rw [frames]
    have size := whole rfl
    rw [writing, Option.map_some, Option.some_inj] at size
    cases sending with
    | writing outstanding room same =>
        rw [writing] at outstanding
        cases outstanding
        rw [same, ← size, List.take_length]
        simp
    | rest idle fresh same => simp [writing] at idle
    | cut idle spent begins covers => simp [writing] at idle
  · have unwritten : writtenFrames state.peer (.write errorCode) = [] := by
      unfold writtenFrames
      split
      case h_1 same =>
        cases same
        exact absurd rfl succeeded
      · rfl
    rw [unwritten, List.append_nil]
    exact .cut rfl (.inr ⟨errorCode, by simp [writeCodes, PeerHandler.writeCode?], succeeded⟩)
      (sending.begins outgoing) sending.covers

/-- No step of a peer takes back what is in the pipe, or adds to it. -/
theorem Sending.step (sending : Sending log state progress sent)
    (outgoing : Outgoing options log state)
    (step : (system options).step? state label = some (state', events))
    (whole : label = .completes (.write .success) →
      state.peer.writing.map List.length = some progress) :
    Sending (log ++ events) state' (if state'.peer.writing.isSome then progress else 0) sent := by
  cases step_of_eq_some step with
  | handler queued => exact sending.handler outgoing step
  | asyncClose completion =>
      rw [List.append_nil]
      exact sending.kept [.close completion] rfl rfl rfl rfl
  | asyncPushFrame frame =>
      refine sending.kept [.pushFrame frame] rfl rfl ?_ ?_
      · rw [written_append, show written [.called frame] = [] from rfl, List.append_nil]
      · rw [accepted_append, show accepted [.called frame] = [] from rfl, List.append_nil]
  | @completes completion peer handler completed =>
      cases completes_of_eq_some completed with
      | timer waiting =>
          rw [show writtenFrames state.peer (.timer _) = [] from rfl, List.append_nil]
          exact sending.kept _ rfl rfl rfl rfl
      | @read operation errorCode bytes reading genuine filled =>
          rw [show writtenFrames state.peer (.read errorCode bytes) = [] from rfl,
            List.append_nil]
          exact sending.kept _ rfl rfl rfl rfl
      | write writing genuine =>
          exact sending.completes outgoing writing fun same => whole (same ▸ rfl)

end Peer

end UnixDomainStream
