import UnixDomainStream.Link.Sending

/-!
# What one end has read

The bytes that an end has taken out of the pipe: the frames whose bodies its handlers have
taken, and what is there of the frame being read.  One read is outstanding at a time, or the
handler of one that succeeded is queued; when neither is, the reading is over.
-/

namespace UnixDomainStream

open Library Protocol Grammar

/-- The handlers that go on with the reading. -/
def PeerHandler.goesOn : PeerHandler → Bool
  | .start => true
  | .readHeader errorCode _ => errorCode == .success
  | .readBody errorCode _ => errorCode == .success
  | _ => false

/-- The queued handlers that go on with the reading. -/
def onward (handlers : List PeerHandler) : List PeerHandler :=
  handlers.filter PeerHandler.goesOn

@[simp]
theorem onward_append (first second : List PeerHandler) :
    onward (first ++ second) = onward first ++ onward second :=
  List.filter_append ..

theorem PeerHandler.goesOn_of_failed {handler : PeerHandler} (failed : handler.failed = true) :
    handler.goesOn = false := by
  cases handler <;> simp_all [PeerHandler.failed, PeerHandler.goesOn]

namespace PeerTurn

variable {options : CommonOptions} {turn after last : PeerTurn}

/-- No handler that a handler posts goes on with the reading. -/
theorem onward_posted (options : CommonOptions) (handler : PeerHandler) (peer : Peer) :
    onward (run options handler { peer }).posted = [] := by
  refine List.filter_eq_nil_iff.mpr fun posted member => ?_
  have failed := (run_shape options handler peer).posted posted member
  simp [PeerHandler.goesOn_of_failed failed]

/-- A read is at most broken off. -/
structure Still (turn after : PeerTurn) : Prop where
  reading : after.peer.reading = turn.peer.reading ∨ after.peer.reading = none
  readBody : after.peer.readBody = turn.peer.readBody

theorem Still.of_eq (reading : after.peer.reading = turn.peer.reading)
    (readBody : after.peer.readBody = turn.peer.readBody) : Still turn after :=
  ⟨.inl reading, readBody⟩

theorem Still.trans (first : Still turn after) (second : Still after last) : Still turn last := by
  refine ⟨?_, second.readBody.trans first.readBody⟩
  rcases second.reading with kept | none
  · rw [kept]
    exact first.reading
  · exact .inr none

theorem Still.none (still : Still turn after) (idle : turn.peer.reading = none) :
    after.peer.reading = none := by
  rcases still.reading with kept | none
  · exact kept.trans idle
  · exact none

theorem close_still (turn : PeerTurn) : Still turn turn.close := by
  have socket : Still turn turn.closeSocket := ⟨.inr rfl, rfl⟩
  unfold close
  dsimp only
  split
  · exact socket.trans (.of_eq rfl rfl)
  · exact socket

theorem handleError_still (errorCode : ErrorCode) (turn : PeerTurn) :
    Still turn (turn.handleError errorCode) := by
  unfold handleError
  split
  · exact .of_eq rfl rfl
  · have reported : Still turn (turn.enqueue (.errorOccurred errorCode)) := .of_eq rfl rfl
    exact reported.trans (close_still _)

theorem write_still (turn : PeerTurn) : Still turn turn.write := by
  unfold write
  split
  · exact .of_eq rfl rfl
  · split <;> exact .of_eq rfl rfl

theorem pushFrame_still (frame : Bytes) (turn : PeerTurn) :
    Still turn (turn.pushFrame options frame) := by
  unfold pushFrame
  split
  · split
    · exact handleError_still _ turn
    · dsimp only
      split
      · have longer : Still turn { turn with peer := { turn.peer with
            writeQueue := turn.peer.writeQueue ++ [frame] } } := .of_eq rfl rfl
        exact longer.trans (write_still _)
      · exact .of_eq rfl rfl
  · exact .of_eq rfl rfl

theorem ensureReady_still (turn : PeerTurn) : Still turn turn.ensureReady := by
  unfold ensureReady
  split <;> exact .of_eq rfl rfl

/-- A handler that does not go on with the reading. -/
theorem run_still {handler : PeerHandler} {peer : Peer} (other : handler.goesOn = false) :
    Still { peer } (run options handler { peer }) := by
  cases handler with
  | start => cases other
  | close completion =>
      exact (close_still { peer }).trans (.of_eq rfl rfl)
  | pushFrame frame => exact pushFrame_still frame { peer }
  | timer name wait errorCode =>
      simp only [run]
      split
      · cases name with
        | readyDeadline => exact ensureReady_still { peer }
        | heartbeatTimer =>
            simp only [onTimer]
            split
            · exact (pushFrame_still _ { peer }).trans (.of_eq rfl rfl)
            · exact .of_eq rfl rfl
        | heartbeatDeadline => exact handleError_still _ { peer }
        | readDeadline => exact handleError_still _ { peer }
        | writeDeadline => exact handleError_still _ { peer }
      · exact .of_eq rfl rfl
  | readHeader errorCode bytes =>
      have failed : errorCode ≠ .success := by simpa [PeerHandler.goesOn] using other
      have cancelled : Still { peer } (({ peer } : PeerTurn).cancel .readDeadline) := .of_eq rfl rfl
      simp only [run, onReadHeader, ne_eq, failed, not_false_eq_true, if_true]
      split
      · exact cancelled.trans (close_still _)
      · exact cancelled.trans (handleError_still _ _)
  | readBody errorCode bytes =>
      have failed : errorCode ≠ .success := by simpa [PeerHandler.goesOn] using other
      have cancelled : Still { peer } (({ peer } : PeerTurn).cancel .readDeadline) := .of_eq rfl rfl
      simp only [run, onReadBody, ne_eq, failed, not_false_eq_true, if_true]
      exact cancelled.trans (handleError_still _ _)
  | write errorCode =>
      have cancelled : Still { peer } (({ peer } : PeerTurn).cancel .writeDeadline) :=
        .of_eq rfl rfl
      simp only [run, onWrite]
      split
      · exact cancelled.trans (handleError_still _ _)
      · split
        · exact .of_eq rfl rfl
        case h_2 front rest queued =>
          have popped : Still { peer } { ({ peer } : PeerTurn).cancel .writeDeadline with
              peer := { (({ peer } : PeerTurn).cancel .writeDeadline).peer with
                writeQueue := rest } } := .of_eq rfl rfl
          split
          · exact popped.trans (close_still _)
          · exact popped.trans (write_still _)

/-! ## The handlers that go on -/

theorem asyncRead_reading (operation : PendingRead) (turn : PeerTurn) :
    (turn.asyncRead operation).peer.reading =
      if turn.peer.isOpen then some operation else turn.peer.reading := by
  unfold asyncRead
  split <;> rfl

theorem asyncWait_reading (name : PeerTimer) (turn : PeerTurn) :
    (turn.asyncWait name).peer.reading = turn.peer.reading := rfl

theorem readHeader_reading (idle : turn.peer.reading = none) :
    turn.readHeader.peer.reading = none ∨ turn.readHeader.peer.reading = some .header := by
  unfold readHeader
  split
  · rw [asyncRead_reading]
    split
    · exact .inr rfl
    · exact .inl idle
  · exact .inl idle

theorem run_start {peer : Peer} (idle : peer.reading = none) :
    (run options .start { peer }).peer.reading = none ∨
      (run options .start { peer }).peer.reading = some .header := by
  refine readHeader_reading ?_
  simp only [startReadyDeadline, startHeartbeatTimer, refreshHeartbeatDeadline, asyncWait_reading]
  exact idle

/-- The buffer gets the announced size, and is read unless the socket is closed. -/
theorem readBody_reading {bodySize : Nat} (idle : turn.peer.reading = none)
    (sized : 0 < bodySize) :
    let after := ({ turn with peer := { turn.peer with
      readBody := turn.peer.readBody.takeD bodySize 0 } } : PeerTurn).readBody.peer
    after.reading = none ∨ after.reading = some (.body after.readBody.length) ∧
      after.readBody.length = bodySize ∧ after.readBody ≠ [] := by
  have size := @List.takeD_length _ bodySize turn.peer.readBody 0
  have nonempty : turn.peer.readBody.takeD bodySize 0 ≠ [] := by
    rw [← List.length_pos_iff, size]
    exact sized
  simp only [readBody, asyncRead]
  split
  · exact .inr ⟨rfl, size, nonempty⟩
  · exact .inl idle

/-- After its header the body of a frame is read, or the reading is over. -/
theorem run_readHeader {peer : Peer} {header : Bytes} (idle : peer.reading = none) :
    let after := (run options (.readHeader .success header) { peer }).peer
    after.reading = none ∨ after.reading = some (.body after.readBody.length) ∧
      after.readBody.length = (decodeUint32 header).toNat ∧ after.readBody ≠ [] := by
  have refused : ∀ turn : PeerTurn, turn.peer.reading = none →
      (turn.handleError .messageSize).peer.reading = none :=
    fun turn => (handleError_still .messageSize turn).none
  simp only [run, onReadHeader, ne_eq, not_true_eq_false, if_false]
  split
  · exact .inl (refused _ idle)
  · split
    · exact .inl (refused _ idle)
    case isFalse sized =>
      rw [not_or, Nat.not_lt] at sized
      exact readBody_reading idle sized.1

theorem readUserData_reading (idle : turn.peer.reading = none) :
    (turn.readUserData options).peer.reading = none ∨
      (turn.readUserData options).peer.reading = some .header := by
  have ready := (ensureReady_still turn).none idle
  unfold readUserData
  dsimp only
  split
  · exact .inl ((handleError_still _ _).none ready)
  · exact readHeader_reading ready

theorem readRequestResponse_reading (signal : UInt64 → Bytes → Signal)
    (idle : turn.peer.reading = none) :
    (turn.readRequestResponse options signal).peer.reading = none ∨
      (turn.readRequestResponse options signal).peer.reading = some .header := by
  have ready := (ensureReady_still turn).none idle
  unfold readRequestResponse
  dsimp only
  split
  · exact .inl ((handleError_still _ _).none ready)
  · split
    · exact .inl ready
    · exact readHeader_reading ready

theorem readHealthCheck_still (turn : PeerTurn) : Still turn (turn.readHealthCheck options) := by
  unfold readHealthCheck
  split
  · exact handleError_still _ turn
  · have classified : Still turn
        { turn with peer := { turn.peer with closeAfterWrite := true } } := .of_eq rfl rfl
    exact classified.trans (pushFrame_still _ _)

theorem readMessage_reading (idle : turn.peer.reading = none) :
    (turn.readMessage options).peer.reading = none ∨
      (turn.readMessage options).peer.reading = some .header := by
  unfold readMessage
  split
  · exact .inl idle
  · split
    · exact readHeader_reading idle
    · exact readUserData_reading idle
    · exact readRequestResponse_reading _ idle
    · exact readRequestResponse_reading _ idle
    · exact .inl ((readHealthCheck_still turn).none idle)
    · exact @readHeader_reading (turn.enqueue .healthCheckResponseReceived) idle
    · exact .inl ((handleError_still _ turn).none idle)

/-- After its body the next header is read, or the reading is over. -/
theorem run_readBody {peer : Peer} {body : Bytes} (idle : peer.reading = none) :
    (run options (.readBody .success body) { peer }).peer.reading = none ∨
      (run options (.readBody .success body) { peer }).peer.reading = some .header := by
  simp only [run, onReadBody, ne_eq, not_true_eq_false, if_false]
  split
  · exact .inl ((handleError_still _ _).none idle)
  · exact readMessage_reading idle

end PeerTurn

namespace Peer

variable {options : CommonOptions} {state state' : State} {read : List Bytes} {consumed : Bytes}

/-- The bytes that a peer has taken out of its pipe, by what its reading is at. -/
inductive Receiving (state : State) (read : List Bytes) (consumed : Bytes) : Prop where
  | starting (queued : onward state.handlers = [.start]) (idle : state.peer.reading = none)
      (unread : read = []) (untouched : consumed = [])
  | header (queued : onward state.handlers = [])
      (outstanding : state.peer.reading = some .header) (same : consumed = read.flatMap framed)
  | announced {header : Bytes} (queued : onward state.handlers = [.readHeader .success header])
      (idle : state.peer.reading = none) (full : header.length = headerSize)
      (same : consumed = read.flatMap framed ++ header)
  | body {header : Bytes} (queued : onward state.handlers = [])
      (outstanding : state.peer.reading = some (.body state.peer.readBody.length))
      (size : state.peer.readBody.length = (decodeUint32 header).toNat)
      (nonempty : state.peer.readBody ≠ []) (full : header.length = headerSize)
      (same : consumed = read.flatMap framed ++ header)
  | complete {body : Bytes} (queued : onward state.handlers = [.readBody .success body])
      (idle : state.peer.reading = none) (whole : body.length = state.peer.readBody.length)
      (known : Framable body) (same : consumed = (read ++ [body]).flatMap framed)
  | stopped (queued : onward state.handlers = []) (idle : state.peer.reading = none)
      (begins : read.flatMap framed <+: consumed)

theorem flatMap_begins (read more : List Bytes) :
    read.flatMap framed <+: (read ++ more).flatMap framed :=
  ⟨more.flatMap framed, by simp⟩

/-- The frames read are in the bytes taken. -/
theorem Receiving.begins (receiving : Receiving state read consumed) :
    read.flatMap framed <+: consumed := by
  cases receiving with
  | starting queued idle unread untouched =>
      rw [unread]
      exact List.nil_prefix
  | header queued outstanding same => exact same ▸ List.prefix_refl _
  | announced queued idle full same => exact ⟨_, same.symm⟩
  | body queued outstanding size nonempty full same => exact ⟨_, same.symm⟩
  | complete queued idle whole known same => exact same ▸ flatMap_begins read _
  | stopped queued idle begins => exact begins

/-- A step that reads nothing can at most break off the outstanding read. -/
theorem Receiving.still (receiving : Receiving state read consumed)
    (queued' : onward state'.handlers = onward state.handlers)
    (still : state'.peer.reading = state.peer.reading ∨ state'.peer.reading = none)
    (readBody : state'.peer.readBody = state.peer.readBody) : Receiving state' read consumed := by
  have idle' : state.peer.reading = none → state'.peer.reading = none :=
    fun idle => still.elim (fun kept => kept.trans idle) id
  have begins := receiving.begins
  cases receiving with
  | starting queued idle unread untouched =>
      exact .starting (queued'.trans queued) (idle' idle) unread untouched
  | header queued outstanding same =>
      rcases still with kept | broken
      · exact .header (queued'.trans queued) (kept.trans outstanding) same
      · exact .stopped (queued'.trans queued) broken begins
  | announced queued idle full same =>
      exact .announced (queued'.trans queued) (idle' idle) full same
  | body queued outstanding size nonempty full same =>
      rcases still with kept | broken
      · exact .body (queued'.trans queued) (by rw [kept, outstanding, readBody])
          (readBody ▸ size) (readBody ▸ nonempty) full same
      · exact .stopped (queued'.trans queued) broken begins
  | complete queued idle whole known same =>
      exact .complete (queued'.trans queued) (idle' idle) (readBody ▸ whole) known same
  | stopped queued idle begins => exact .stopped (queued'.trans queued) (idle' idle) begins

/-- Where the reading is when no handler that goes on is queued: it is over, or the next
header is read. -/
theorem Receiving.between (queued : onward state.handlers = [])
    (next : state.peer.reading = none ∨ state.peer.reading = some .header)
    (same : consumed = read.flatMap framed) : Receiving state read consumed := by
  rcases next with idle | outstanding
  · exact .stopped queued idle (same ▸ List.prefix_refl _)
  · exact .header queued outstanding same

theorem bodies_of_still {handler : PeerHandler} {rest : List PeerHandler}
    (queued : state.handlers = handler :: rest) (other : ∀ body, handler ≠ .readBody .success body) :
    Link.bodies state .handler = [] := by
  simp only [Link.bodies, queued]
  split
  case h_1 body more same =>
    cases same
    exact absurd rfl (other body)
  · rfl

/-- A handler takes the reading on, or leaves it alone. -/
theorem Receiving.handler (receiving : Receiving state read consumed) {events : List Event}
    (step : (system options).step? state .handler = some (state', events)) :
    Receiving state' (read ++ Link.bodies state .handler) consumed := by
  cases step_of_eq_some step with
  | @handler handler rest queued =>
      have posted := PeerTurn.onward_posted options handler state.peer
      cases goes : handler.goesOn with
      | false =>
          have still : PeerTurn.Still { peer := state.peer } _ :=
            @PeerTurn.run_still options handler state.peer goes
          rw [bodies_of_still queued (by rintro body rfl; cases goes), List.append_nil]
          refine receiving.still ?_ still.reading still.readBody
          rw [onward_append, posted, List.append_nil, queued, onward, onward,
            List.filter_cons_of_neg (by simp [goes])]
      | true =>
          have head : onward state.handlers = handler :: onward rest := by
            rw [queued, onward, onward, List.filter_cons_of_pos goes]
          have after : ∀ single, onward state.handlers = [single] →
              handler = single ∧ onward (rest ++
                (PeerTurn.run options handler { peer := state.peer }).posted) = [] := by
            intro single same
            obtain ⟨first, nothing⟩ := List.cons.inj (head.symm.trans same)
            rw [onward_append, posted, nothing, List.append_nil]
            exact ⟨first, rfl⟩
          have busy : onward state.handlers ≠ [] := by simp [head]
          cases receiving with
          | starting queued' idle unread untouched =>
              obtain ⟨rfl, quiet⟩ := after _ queued'
              rw [bodies_of_still queued (by simp), List.append_nil, unread, untouched]
              exact .between quiet (PeerTurn.run_start idle) rfl
          | header queued' => exact absurd queued' busy
          | @announced header queued' idle full same =>
              obtain ⟨rfl, quiet⟩ := after _ queued'
              rw [bodies_of_still queued (by simp), List.append_nil]
              rcases PeerTurn.run_readHeader idle with stopped | ⟨outstanding, size, nonempty⟩
              · exact .stopped quiet stopped ⟨_, same.symm⟩
              · exact .body quiet outstanding size nonempty full same
          | body queued' => exact absurd queued' busy
          | @complete body queued' idle whole known same =>
              obtain ⟨rfl, quiet⟩ := after _ queued'
              have taken : Link.bodies state .handler = [body] := by
                simp [Link.bodies, queued, whole]
              rw [taken]
              exact .between quiet (PeerTurn.run_readBody idle) same
          | stopped queued' => exact absurd queued' busy

/-- A read completes: it has its bytes, or it is the last one. -/
theorem Receiving.completes {operation : PendingRead} {errorCode : ErrorCode} {bytes : Bytes}
    (receiving : Receiving state read consumed) (reading : state.peer.reading = some operation)
    (filled : (errorCode = .success ∧ bytes.length = operation.size) ∨
      (errorCode ≠ .success ∧ bytes.length < operation.size)) :
    Receiving { peer := { state.peer with reading := none }
                handlers := state.handlers ++ [PeerTurn.readHandler operation errorCode bytes] }
      read (consumed ++ bytes) := by
  have broken : errorCode ≠ .success → onward [PeerTurn.readHandler operation errorCode bytes] = [] := by
    intro failed
    have fails := @PeerTurn.readHandler_failed operation errorCode bytes failed
    simp [onward, PeerHandler.goesOn_of_failed fails]
  have ends : onward state.handlers = [] → errorCode ≠ .success →
      Receiving { peer := { state.peer with reading := none }
                  handlers := state.handlers ++ [PeerTurn.readHandler operation errorCode bytes] }
        read (consumed ++ bytes) := by
    intro queued failed
    refine .stopped ?_ rfl (receiving.begins.trans (List.prefix_append ..))
    rw [onward_append, queued, broken failed, List.nil_append]
  cases receiving with
  | starting queued idle => simp [idle] at reading
  | header queued outstanding same =>
      rcases filled with ⟨rfl, size⟩ | ⟨failed, _⟩
      · rw [outstanding, Option.some_inj] at reading
        subst reading
        refine .announced ?_ rfl size (by rw [same])
        rw [onward_append, queued]
        rfl
      · exact ends queued failed
  | announced queued idle => simp [idle] at reading
  | @body header queued outstanding announcing nonempty full same =>
      rcases filled with ⟨rfl, size⟩ | ⟨failed, _⟩
      · rw [outstanding, Option.some_inj] at reading
        subst reading
        have length : bytes.length = (decodeUint32 header).toNat := size.trans announcing
        have known : Framable bytes := by
          refine ⟨?_, length ▸ (decodeUint32 header).toNat_lt⟩
          rintro rfl
          exact nonempty (List.eq_nil_of_length_eq_zero size.symm)
        refine .complete ?_ rfl size known ?_
        · rw [onward_append, queued]
          rfl
        · rw [same, List.append_assoc, framed_of_header full length]
          simp
      · exact ends queued failed
  | complete queued idle => simp [idle] at reading
  | stopped queued idle => simp [idle] at reading

/-- The bytes that a step takes out of the pipe. -/
def taken : Label → Bytes
  | .completes (.read _ bytes) => bytes
  | _ => []

/-- Each step of a peer takes its reading on by what it takes out of the pipe. -/
theorem Receiving.step (receiving : Receiving state read consumed) {label : Label}
    {events : List Event} (step : (system options).step? state label = some (state', events)) :
    Receiving state' (read ++ Link.bodies state label) (consumed ++ taken label) := by
  have posts : ∀ posted : List PeerHandler, onward posted = [] →
      onward (state.handlers ++ posted) = onward state.handlers := by
    intro posted nothing
    rw [onward_append, nothing, List.append_nil]
  cases step_of_eq_some step with
  | handler queued =>
      rw [show taken .handler = [] from rfl, List.append_nil]
      exact receiving.handler step
  | asyncClose completion =>
      simp only [Link.bodies, taken, List.append_nil]
      exact receiving.still (posts _ rfl) (.inl rfl) rfl
  | asyncPushFrame frame =>
      simp only [Link.bodies, taken, List.append_nil]
      exact receiving.still (posts _ rfl) (.inl rfl) rfl
  | completes completed =>
      cases completes_of_eq_some completed with
      | timer waiting =>
          simp only [Link.bodies, taken, List.append_nil]
          exact receiving.still (posts _ rfl) (.inl rfl) rfl
      | read reading genuine filled =>
          rw [show Link.bodies state (.completes (.read _ _)) = [] from rfl, List.append_nil]
          exact receiving.completes reading filled
      | write writing genuine =>
          simp only [Link.bodies, taken, List.append_nil]
          exact receiving.still (posts _ rfl) (.inl rfl) rfl

/-- The bodies that a handler takes are whole. -/
theorem Receiving.framable (receiving : Receiving state read consumed) {label : Label} :
    ∀ body ∈ Link.bodies state label, Framable body := by
  intro body member
  unfold Link.bodies at member
  split at member
  case h_2 => cases member
  case h_1 =>
    split at member
    case h_2 => cases member
    case h_1 body' rest queued =>
      have head : onward state.handlers = .readBody .success body' :: onward rest := by
        rw [queued, onward, onward]
        rfl
      split at member
      case isFalse => cases member
      case isTrue =>
        rw [List.mem_singleton.mp member]
        cases receiving with
        | complete queued' idle whole known same =>
            rw [head] at queued'
            cases (List.cons.inj queued').1
            exact known
        | starting queued' => simp [head] at queued'
        | header queued' => simp [head] at queued'
        | announced queued' => simp [head] at queued'
        | body queued' => simp [head] at queued'
        | stopped queued' => simp [head] at queued'

end Peer

end UnixDomainStream
