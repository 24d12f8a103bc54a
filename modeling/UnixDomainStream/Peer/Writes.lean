import UnixDomainStream.Peer.Pieces
import UnixDomainStream.Peer.Program

/-!
# The write queue

One write is outstanding at a time, on the frame at the front of the queue, and the
frame leaves the queue when the handler of the write runs.  So the frames written
are the frames accepted, in order, less those still in the queue.
-/

namespace UnixDomainStream

open Library Protocol

/-- The error code of a queued write handler. -/
def PeerHandler.writeCode? : PeerHandler → Option ErrorCode
  | .write errorCode => some errorCode
  | _ => none

def writeCodes (handlers : List PeerHandler) : List ErrorCode :=
  handlers.filterMap PeerHandler.writeCode?

@[simp]
theorem writeCodes_append (first second : List PeerHandler) :
    writeCodes (first ++ second) = writeCodes first ++ writeCodes second :=
  List.filterMap_append ..

theorem writeCodes_map {α : Type} {source : α → PeerHandler}
    (other : ∀ value, (source value).writeCode? = none) (list : List α) :
    writeCodes (list.map source) = [] := by
  rw [writeCodes, List.filterMap_map]
  exact List.filterMap_eq_nil_iff.mpr fun value _ => other value

/-- A peer's write queue, with the codes of the write handlers that are queued, the
frames accepted so far and the frames written so far. -/
structure Outbox (options : CommonOptions) (codes : List ErrorCode) (accepted written : List Bytes)
    (peer : Peer) : Prop where
  bounded : peer.writeQueue.length ≤ options.maxSendQueueSize
  single : codes.length + peer.writing.toList.length ≤ 1
  front : ∀ frame, peer.writing = some frame → ∃ rest, peer.writeQueue = frame :: rest
  busy : codes ≠ [] → peer.writeQueue ≠ []
  aborted : .operationAborted ∈ codes → peer.isOpen = false
  handled : .success ∈ codes → accepted = written ++ peer.writeQueue.tail
  pending : .success ∉ codes → accepted = written ++ peer.writeQueue

/-- While the handler of a write is queued, no other one is and no write is outstanding. -/
theorem Outbox.alone {options : CommonOptions} {errorCode : ErrorCode}
    {codes : List ErrorCode} {frames done : List Bytes}
    {peer : Peer} (outbox : Outbox options (errorCode :: codes) frames done peer) :
    codes = [] ∧ peer.writing = none := by
  have single := outbox.single
  rw [List.length_cons] at single
  constructor
  · exact List.eq_nil_of_length_eq_zero (by omega)
  · cases writing : peer.writing with
    | none => rfl
    | some frame =>
        rw [writing] at single
        simp at single

/-- While the socket is open, a frame in the queue has a write outstanding or its
handler queued. -/
def Working (codes : List ErrorCode) (peer : Peer) : Prop :=
  peer.isOpen = true → peer.writeQueue ≠ [] → peer.writing ≠ none ∨ codes ≠ []

namespace PeerTurn

variable {options : CommonOptions} {codes : List ErrorCode} {accepted written : List Bytes}
variable {before : Peer} {turn after : PeerTurn}

@[simp]
theorem writeCodes_cancel (name : PeerTimer) (turn : PeerTurn) :
    writeCodes (turn.cancel name).posted = writeCodes turn.posted := by
  have timers : writeCodes ((turn.peer.waits name).toList.map fun wait =>
      PeerHandler.timer name wait .operationAborted) = [] := writeCodes_map (fun _ => rfl) _
  rw [cancel, writeCodes_append, timers, List.append_nil]

@[simp]
theorem writeCodes_asyncWait (name : PeerTimer) (turn : PeerTurn) :
    writeCodes (turn.asyncWait name).posted = writeCodes turn.posted :=
  writeCodes_cancel name turn

/-- The aborted write of a socket that is closed. -/
def abortedCodes (peer : Peer) : List ErrorCode :=
  peer.writing.toList.map fun _ => .operationAborted

/-- What closing does to the write queue. -/
structure Shuts (turn after : PeerTurn) : Prop where
  isOpen : after.peer.isOpen = false
  writing : after.peer.writing = none
  writeQueue : after.peer.writeQueue = turn.peer.writeQueue
  posted : writeCodes after.posted = writeCodes turn.posted ++ abortedCodes turn.peer

theorem abortSocket_shuts (turn : PeerTurn) : Shuts turn turn.abortSocket := by
  refine ⟨rfl, rfl, rfl, ?_⟩
  have reads : writeCodes (turn.peer.reading.toList.map fun operation =>
      readHandler operation .operationAborted []) = [] :=
    writeCodes_map (fun operation => by cases operation <;> rfl) _
  have writes : writeCodes (turn.peer.writing.toList.map fun _ =>
      PeerHandler.write .operationAborted) = abortedCodes turn.peer := by
    unfold abortedCodes
    cases turn.peer.writing <;> rfl
  rw [abortSocket, writeCodes_append, writeCodes_append, reads, writes, List.append_nil]

theorem close_shuts (turn : PeerTurn) : Shuts turn turn.close := by
  have socket : Shuts turn turn.closeSocket := by
    have aborted := abortSocket_shuts
      (((((({ turn with peer := { turn.peer with closedOnExecutor := true } } : PeerTurn).cancel
        .readyDeadline).cancel .heartbeatTimer).cancel .heartbeatDeadline).cancel
        .readDeadline).cancel .writeDeadline)
    refine ⟨rfl, rfl, rfl, aborted.posted.trans ?_⟩
    simp only [writeCodes_cancel]
    rfl
  unfold close
  dsimp only
  split
  · exact ⟨socket.isOpen, socket.writing, socket.writeQueue, socket.posted⟩
  · exact socket

theorem handleError_shuts {errorCode : ErrorCode} (genuine : errorCode ≠ .operationAborted)
    (turn : PeerTurn) : Shuts turn (turn.handleError errorCode) := by
  rw [handleError, if_neg genuine]
  have closed := close_shuts (turn.enqueue (.errorOccurred errorCode))
  exact ⟨closed.isOpen, closed.writing, closed.writeQueue, closed.posted⟩

/-- On an open socket the front of the queue is written. -/
structure Starts (front : Bytes) (turn after : PeerTurn) : Prop where
  isOpen : after.peer.isOpen = true
  writing : after.peer.writing = some front
  writeQueue : after.peer.writeQueue = turn.peer.writeQueue
  posted : writeCodes after.posted = writeCodes turn.posted

theorem write_starts {front : Bytes} {rest : List Bytes}
    (queued : turn.peer.writeQueue = front :: rest) (opened : turn.peer.isOpen = true) :
    Starts front turn turn.write := by
  have started : turn.write = { turn.asyncWait .writeDeadline with
      peer := { (turn.asyncWait .writeDeadline).peer with writing := some front } } := by
    simp only [write, queued, opened, if_true]
  rw [started]
  exact ⟨opened, rfl, rfl, writeCodes_asyncWait _ _⟩

theorem write_closed (closed : turn.peer.isOpen = false) : turn.write = turn := by
  unfold write
  split
  · rfl
  · simp [closed]

theorem write_empty (empty : turn.peer.writeQueue = []) : turn.write = turn := by
  simp [write, empty]

/-- The write queue of a handler in progress, which has only added to the queue. -/
def Writes (options : CommonOptions) (codes : List ErrorCode) (accepted written : List Bytes)
    (before : Peer) (turn : PeerTurn) : Prop :=
  ∃ frames, turn.peer.writeQueue = before.writeQueue ++ frames ∧
    Outbox options (codes ++ writeCodes turn.posted) (accepted ++ frames) written turn.peer

namespace Writes

/-- A piece that touches neither the queue nor a write. -/
theorem of_same (writes : Writes options codes accepted written before turn)
    (isOpen : after.peer.isOpen = turn.peer.isOpen)
    (writing : after.peer.writing = turn.peer.writing)
    (writeQueue : after.peer.writeQueue = turn.peer.writeQueue)
    (posted : writeCodes after.posted = writeCodes turn.posted) :
    Writes options codes accepted written before after := by
  obtain ⟨frames, grown, outbox⟩ := writes
  refine ⟨frames, writeQueue.trans grown, ?_⟩
  rw [posted]
  exact ⟨writeQueue ▸ outbox.bounded, writing ▸ outbox.single,
    fun frame same => writeQueue ▸ outbox.front frame (writing ▸ same),
    fun queued => writeQueue ▸ outbox.busy queued, fun queued => isOpen ▸ outbox.aborted queued,
    fun queued => writeQueue ▸ outbox.handled queued,
    fun unqueued => writeQueue ▸ outbox.pending unqueued⟩

/-- Closing the socket aborts the write, and leaves the queue as it is. -/
theorem shut (writes : Writes options codes accepted written before turn)
    (shuts : Shuts turn after) : Writes options codes accepted written before after := by
  obtain ⟨frames, grown, outbox⟩ := writes
  have success : .success ∈ codes ++ writeCodes after.posted ↔
      .success ∈ codes ++ writeCodes turn.posted := by
    have unaborted : .success ∉ abortedCodes turn.peer := by simp [abortedCodes]
    rw [shuts.posted]
    simp only [List.mem_append, unaborted, or_false]
  refine ⟨frames, shuts.writeQueue.trans grown, ?_, ?_, ?_, ?_, fun _ => shuts.isOpen, ?_, ?_⟩
  · exact shuts.writeQueue ▸ outbox.bounded
  · have single := outbox.single
    simp only [shuts.posted, shuts.writing, abortedCodes, List.length_append, List.length_map,
      Option.toList_none, List.length_nil] at single ⊢
    omega
  · simp [shuts.writing]
  · intro queued
    rw [shuts.writeQueue]
    cases writing : turn.peer.writing with
    | none =>
        rw [shuts.posted, abortedCodes, writing] at queued
        exact outbox.busy (by simpa using queued)
    | some frame =>
        obtain ⟨rest, same⟩ := outbox.front frame writing
        simp [same]
  · rw [shuts.writeQueue]
    exact fun queued => outbox.handled (success.mp queued)
  · rw [shuts.writeQueue]
    exact fun unqueued => outbox.pending fun queued => unqueued (success.mpr queued)

theorem handleError (writes : Writes options codes accepted written before turn)
    (errorCode : ErrorCode) :
    Writes options codes accepted written before (turn.handleError errorCode) := by
  by_cases aborted : errorCode = .operationAborted
  · rwa [PeerTurn.handleError, if_pos aborted]
  · exact writes.shut (handleError_shuts aborted turn)

/-- A frame put into an empty queue is written at once; behind other frames it
waits. -/
theorem pushFrame (writes : Writes options codes accepted written before turn) (frame : Bytes) :
    Writes options codes accepted written before (turn.pushFrame options frame) := by
  unfold PeerTurn.pushFrame
  split
  case isFalse => exact writes
  case isTrue opened =>
    split
    · exact writes.handleError _
    case isFalse room =>
      obtain ⟨frames, grown, outbox⟩ := writes
      have space : turn.peer.writeQueue.length < options.maxSendQueueSize := by
        simp only [not_or, ge_iff_le, not_le] at room
        exact room.2
      dsimp only
      split
      case isTrue empty =>
        have empty' : turn.peer.writeQueue = [] := List.isEmpty_iff.mp empty
        have idle : codes ++ writeCodes turn.posted = [] := by
          by_contra queued
          exact outbox.busy queued empty'
        have total := outbox.pending (by simp [idle])
        have starts := @write_starts
          { turn with peer := { turn.peer with writeQueue := turn.peer.writeQueue ++ [frame] } }
          frame [] (by simp [empty']) opened
        generalize PeerTurn.write _ = wrote at starts ⊢
        refine ⟨frames ++ [frame], by simp [starts.writeQueue, grown], ?_⟩
        rw [starts.posted, idle]
        refine ⟨?_, by simp [starts.writing], ?_, by simp, by simp, by simp, fun _ => ?_⟩
        · simpa [starts.writeQueue] using Nat.succ_le_of_lt space
        · intro front same
          rw [starts.writing] at same
          exact ⟨[], by simp [starts.writeQueue, empty', ← Option.some.inj same]⟩
        · rw [starts.writeQueue, ← List.append_assoc, total, List.append_assoc]
      case isFalse full =>
        refine ⟨frames ++ [frame], by simp [grown], ?_, outbox.single, ?_, by simp,
          outbox.aborted, ?_, ?_⟩
        · simpa using Nat.succ_le_of_lt space
        · intro front same
          obtain ⟨rest, queued⟩ := outbox.front front same
          exact ⟨rest ++ [frame], by simp [queued]⟩
        · intro queued
          have total := outbox.handled queued
          cases queue : turn.peer.writeQueue with
          | nil => simp [queue] at full
          | cons first rest =>
              rw [queue, List.tail_cons] at total
              rw [← List.append_assoc, total]
              simp
        · intro unqueued
          rw [← List.append_assoc, outbox.pending unqueued, List.append_assoc]

/-- Only the handler of a successful write removes a frame. -/
theorem piece {handler : PeerHandler} (piece : Piece options handler turn after)
    (other : handler ≠ .write .success)
    (writes : Writes options codes accepted written before turn) :
    Writes options codes accepted written before after := by
  cases piece with
  | cancel name => exact writes.of_same rfl rfl rfl (writeCodes_cancel name turn)
  | asyncWait name => exact writes.of_same rfl rfl rfl (writeCodes_asyncWait name turn)
  | asyncRead operation =>
      unfold asyncRead
      split
      · exact writes.of_same rfl rfl rfl rfl
      · refine writes.of_same rfl rfl rfl ?_
        cases operation <;> simp [post, readHandler, writeCodes, PeerHandler.writeCode?]
  | report early => exact writes.of_same rfl rfl rfl rfl
  | handleError errorCode => exact writes.handleError errorCode
  | close => exact writes.shut (close_shuts turn)
  | pushFrame frame => exact writes.pushFrame frame
  | update same =>
      exact writes.of_same same.isOpen same.writing same.writeQueue
        (congrArg writeCodes same.posted)
  | pop queued own => exact absurd own other
  | write _ own => exact absurd own other

end Writes

/-! ## An open socket keeps writing -/

theorem Shuts.working (shuts : Shuts turn after) (codes : List ErrorCode) :
    Working codes after.peer := fun opened => by simp [shuts.isOpen] at opened

theorem pushFrame_working (working : Working (codes ++ writeCodes turn.posted) turn.peer)
    (frame : Bytes) :
    Working (codes ++ writeCodes (turn.pushFrame options frame).posted)
      (turn.pushFrame options frame).peer := by
  unfold pushFrame
  split
  case isFalse => exact working
  case isTrue opened =>
    split
    · exact (handleError_shuts (by decide) turn).working _
    · dsimp only
      split
      case isTrue empty =>
        have empty' : turn.peer.writeQueue = [] := List.isEmpty_iff.mp empty
        have starts := @write_starts
          { turn with peer := { turn.peer with writeQueue := turn.peer.writeQueue ++ [frame] } }
          frame [] (by simp [empty']) opened
        exact fun _ _ => .inl (by simp [starts.writing])
      case isFalse full =>
        exact fun opened _ => working opened (by simpa using full)

theorem Piece.working {handler : PeerHandler} (piece : Piece options handler turn after)
    (other : handler ≠ .write .success)
    (working : Working (codes ++ writeCodes turn.posted) turn.peer) :
    Working (codes ++ writeCodes after.posted) after.peer := by
  cases piece with
  | cancel name =>
      rw [writeCodes_cancel]
      exact working
  | asyncWait name =>
      rw [writeCodes_asyncWait]
      exact working
  | asyncRead operation =>
      unfold PeerTurn.asyncRead
      split
      · exact working
      · rw [post, writeCodes_append]
        intro opened queued
        exact (working opened queued).imp_right fun nonempty => by simp_all
  | report early => exact working
  | handleError errorCode =>
      by_cases aborted : errorCode = .operationAborted
      · rwa [PeerTurn.handleError, if_pos aborted]
      · exact (handleError_shuts aborted turn).working _
  | close => exact (close_shuts turn).working _
  | pushFrame frame => exact pushFrame_working working frame
  | update same =>
      intro opened queued
      rw [same.writing, same.posted]
      exact working (same.isOpen ▸ opened) (same.writeQueue ▸ queued)
  | pop queued own => exact absurd own other
  | write _ own => exact absurd own other

end PeerTurn

namespace PeerTurn

/-- What the handler of a write leaves: the queue is empty or being written, unless
the socket is closed. -/
structure Served (queue : List Bytes) (turn : PeerTurn) : Prop where
  writeQueue : turn.peer.writeQueue = queue
  posted : writeCodes turn.posted = []
  writing : turn.peer.writing = none ∧ (turn.peer.isOpen = true → queue = []) ∨
    ∃ front rest, queue = front :: rest ∧ turn.peer.writing = some front

theorem Shuts.served {turn after : PeerTurn} (shuts : Shuts turn after)
    (idle : turn.peer.writing = none) (posted : writeCodes turn.posted = []) :
    Served turn.peer.writeQueue after := by
  refine ⟨shuts.writeQueue, ?_, .inl ⟨shuts.writing, ?_⟩⟩
  · rw [shuts.posted, posted, abortedCodes, idle]
    rfl
  · simp [shuts.isOpen]

/-- The next write starts if there is a frame to write. -/
theorem write_served {turn : PeerTurn} (idle : turn.peer.writing = none)
    (posted : writeCodes turn.posted = []) : Served turn.peer.writeQueue turn.write := by
  cases queued : turn.peer.writeQueue with
  | nil =>
      rw [write_empty queued]
      exact ⟨queued, posted, .inl ⟨idle, fun _ => rfl⟩⟩
  | cons front rest =>
      cases opened : turn.peer.isOpen with
      | true =>
          have starts := write_starts queued opened
          exact ⟨starts.writeQueue.trans queued, starts.posted.trans posted,
            .inr ⟨front, rest, rfl, starts.writing⟩⟩
      | false =>
          rw [write_closed opened]
          exact ⟨queued, posted, .inl ⟨idle, by simp [opened]⟩⟩

end PeerTurn

/-- A successful write has its frame removed, and a failed one leaves the queue as
it is. -/
theorem Outbox.served {options : CommonOptions} {errorCode : ErrorCode} {frames done : List Bytes}
    {peer : Peer} (outbox : Outbox options [errorCode] frames done peer)
    (idle : peer.writing = none) :
    ∃ queue, PeerTurn.Served queue (PeerTurn.run options (.write errorCode) { peer }) ∧
      queue.length ≤ options.maxSendQueueSize ∧ frames = done ++ queue := by
  have cancelled : writeCodes (({ peer } : PeerTurn).cancel .writeDeadline).posted = [] :=
    PeerTurn.writeCodes_cancel .writeDeadline { peer }
  simp only [PeerTurn.run, PeerTurn.onWrite]
  split
  case isTrue failed =>
    refine ⟨peer.writeQueue, ?_, outbox.bounded, outbox.pending (by simpa using Ne.symm failed)⟩
    by_cases aborted : errorCode = .operationAborted
    · have closed : peer.isOpen = false := outbox.aborted (by simp [aborted])
      rw [PeerTurn.handleError, if_pos aborted]
      exact ⟨rfl, cancelled, .inl ⟨idle, by simp [PeerTurn.cancel, closed]⟩⟩
    · exact (PeerTurn.handleError_shuts aborted _).served idle cancelled
  case isFalse succeeded =>
    have total := outbox.handled (by simpa using Eq.symm (Decidable.not_not.mp succeeded))
    split
    case h_1 empty => exact absurd empty (outbox.busy (by simp))
    case h_2 front rest queued =>
      have queued' : peer.writeQueue = front :: rest := queued
      have bounded := outbox.bounded
      rw [queued', List.length_cons] at bounded
      rw [queued', List.tail_cons] at total
      let popped : PeerTurn :=
        { ({ peer } : PeerTurn).cancel .writeDeadline with
          peer := { (({ peer } : PeerTurn).cancel .writeDeadline).peer with writeQueue := rest } }
      refine ⟨rest, ?_, by omega, total⟩
      split
      · exact (PeerTurn.close_shuts popped).served idle cancelled
      · exact @PeerTurn.write_served popped idle cancelled

namespace Peer

/-! ## The frames of a run -/

def Event.accepted? : Event → Option Bytes
  | .accepted _ frame => some frame
  | _ => none

def Event.written? : Event → Option Bytes
  | .written frame => some frame
  | _ => none

def Event.called? : Event → Option Bytes
  | .called frame => some frame
  | _ => none

def Event.acceptedCall? : Event → Option Bytes
  | .accepted true frame => some frame
  | _ => none

/-- The frames put into the write queue, in order. -/
def accepted (log : List Event) : List Bytes := log.filterMap Event.accepted?

/-- The frames of the writes that have completed successfully, in order. -/
def written (log : List Event) : List Bytes := log.filterMap Event.written?

/-- The frames given to `async_push_frame`, in the order of the calls. -/
def called (log : List Event) : List Bytes := log.filterMap Event.called?

/-- Those of them that were put into the write queue. -/
def acceptedCalls (log : List Event) : List Bytes := log.filterMap Event.acceptedCall?

/-- A kind of record that only the acceptances of a handler have. -/
theorem filterMap_handlerEvents {α : Type} {select : Event → Option α}
    (signal : ∀ sent, select (.signal sent) = none)
    (armed : ∀ name wait, select (.armed name wait) = none)
    (finished : ∀ name, select (.finished name) = none)
    (timedOut : ∀ name wait, select (.timedOut name wait) = none)
    (before : Peer) (handler : PeerHandler) (turn : PeerTurn) :
    (handlerEvents before handler turn).filterMap select =
      (acceptances before handler turn.peer).filterMap select := by
  have hidden : ∀ {β : Type} (record : β → Event) (list : List β),
      (∀ value, select (record value) = none) → (list.map record).filterMap select = [] := by
    intro β record list none
    rw [List.filterMap_map]
    exact List.filterMap_eq_nil_iff.mpr fun value _ => none value
  have late : (timedOuts before handler turn).filterMap select = [] := by
    unfold timedOuts
    split
    · split
      · simp [timedOut]
      · rfl
    · rfl
  have renewed : (armings before turn.peer).filterMap select = [] := by
    refine List.filterMap_eq_nil_iff.mpr fun event member => ?_
    obtain ⟨name, _, wait⟩ := List.mem_filterMap.mp member
    split at wait
    · cases wait
    · obtain ⟨number, _, rfl⟩ := Option.map_eq_some_iff.mp wait
      exact armed name number
  simp only [handlerEvents, List.filterMap_append, late, renewed, hidden _ _ finished,
    hidden _ _ signal, List.nil_append, List.append_nil]

/-- The frames that a handler adds to the queue. -/
theorem accepted_handlerEvents {before : Peer} {handler : PeerHandler} {turn : PeerTurn}
    {frames : List Bytes} (other : ∀ errorCode, handler ≠ .write errorCode)
    (grown : turn.peer.writeQueue = before.writeQueue ++ frames) :
    accepted (handlerEvents before handler turn) = frames := by
  refine (filterMap_handlerEvents (fun _ => rfl) (fun _ _ => rfl) (fun _ => rfl)
    (fun _ _ => rfl) before handler turn).trans ?_
  unfold acceptances
  rw [grown, List.drop_left]
  split
  case h_1 errorCode => exact absurd rfl (other errorCode)
  · rw [List.filterMap_map]
    exact List.filterMap_some
  · rw [List.filterMap_map]
    exact List.filterMap_some

/-- The handler of a write accepts no frame. -/
theorem accepted_write (before : Peer) (errorCode : ErrorCode) (turn : PeerTurn) :
    accepted (handlerEvents before (.write errorCode) turn) = [] :=
  filterMap_handlerEvents (fun _ => rfl) (fun _ _ => rfl) (fun _ => rfl) (fun _ _ => rfl) ..

theorem written_handlerEvents (before : Peer) (handler : PeerHandler) (turn : PeerTurn) :
    written (handlerEvents before handler turn) = [] := by
  refine (filterMap_handlerEvents (fun _ => rfl) (fun _ _ => rfl) (fun _ => rfl)
    (fun _ _ => rfl) before handler turn).trans ?_
  unfold acceptances
  split
  · rfl
  · rw [List.filterMap_map]
    exact List.filterMap_eq_nil_iff.mpr fun _ _ => rfl
  · rw [List.filterMap_map]
    exact List.filterMap_eq_nil_iff.mpr fun _ _ => rfl

/-- The invariant of a peer between two handlers. -/
structure Queueing (options : CommonOptions) (log : List Event) (state : State) : Prop where
  outbox : Outbox options (writeCodes state.handlers) (accepted log) (written log) state.peer
  working : Working (writeCodes state.handlers) state.peer

variable {options : CommonOptions} {log : List Event} {state : State} {rest : List PeerHandler}

/-- A handler other than that of a write. -/
theorem Queueing.other {handler : PeerHandler} (queueing : Queueing options log state)
    (queued : state.handlers = handler :: rest) (other : ∀ errorCode, handler ≠ .write errorCode) :
    Queueing options
      (log ++ handlerEvents state.peer handler
        (PeerTurn.run options handler { peer := state.peer }))
      { peer := (PeerTurn.run options handler { peer := state.peer }).peer
        handlers := rest ++ (PeerTurn.run options handler { peer := state.peer }).posted } := by
  obtain ⟨outbox, working⟩ := queueing
  have codes : writeCodes state.handlers = writeCodes rest := by
    rw [queued, writeCodes, List.filterMap_cons]
    cases handler with
    | write errorCode => exact absurd rfl (other errorCode)
    | _ => rfl
  rw [codes] at outbox working
  have pieces := PeerTurn.run_pieces options handler { peer := state.peer }
  have start : PeerTurn.Writes options (writeCodes rest) (accepted log) (written log) state.peer
      { peer := state.peer } := ⟨[], by simp, by simpa [writeCodes] using outbox⟩
  obtain ⟨frames, grown, outbox⟩ := pieces.keeps _ (fun piece writes =>
    writes.piece piece (other .success)) start
  have working : Working (writeCodes rest ++ writeCodes
      (PeerTurn.run options handler { peer := state.peer }).posted) _ := pieces.keeps _
    (fun piece => piece.working (other .success)) (by simpa [writeCodes] using working)
  refine ⟨?_, ?_⟩
  · rw [writeCodes_append, accepted, List.filterMap_append, written, List.filterMap_append]
    have own := accepted_handlerEvents other grown
    have none := written_handlerEvents state.peer handler
      (PeerTurn.run options handler { peer := state.peer })
    rw [accepted] at own
    rw [written] at none
    rw [own, none, List.append_nil]
    exact outbox
  · rw [writeCodes_append]
    exact working

@[simp]
theorem accepted_append (first second : List Event) :
    accepted (first ++ second) = accepted first ++ accepted second :=
  List.filterMap_append ..

@[simp]
theorem written_append (first second : List Event) :
    written (first ++ second) = written first ++ written second :=
  List.filterMap_append ..

/-- The handler of a write keeps the invariant. -/
theorem Queueing.write {errorCode : ErrorCode} (queueing : Queueing options log state)
    (queued : state.handlers = .write errorCode :: rest) :
    Queueing options
      (log ++ handlerEvents state.peer (.write errorCode)
        (PeerTurn.run options (.write errorCode) { peer := state.peer }))
      { peer := (PeerTurn.run options (.write errorCode) { peer := state.peer }).peer
        handlers := rest ++
          (PeerTurn.run options (.write errorCode) { peer := state.peer }).posted } := by
  obtain ⟨outbox, _⟩ := queueing
  have codes : writeCodes state.handlers = errorCode :: writeCodes rest := by
    rw [queued]
    rfl
  rw [codes] at outbox
  obtain ⟨others, idle⟩ := outbox.alone
  rw [others] at outbox
  have served := outbox.served idle
  generalize PeerTurn.run options (.write errorCode) { peer := state.peer } = turn at served ⊢
  obtain ⟨queue, served, bounded, total⟩ := served
  have handlers : writeCodes (rest ++ turn.posted) = [] := by
    rw [writeCodes_append, others, served.posted, List.append_nil]
  have single : turn.peer.writing.toList.length ≤ 1 := by
    cases turn.peer.writing <;> simp
  constructor
  · rw [handlers, accepted_append, accepted_write, written_append, written_handlerEvents,
      List.append_nil, List.append_nil]
    refine ⟨served.writeQueue ▸ bounded, (Nat.zero_add _).trans_le single, ?_, by simp,
      by simp, by simp, fun _ => served.writeQueue ▸ total⟩
    intro frame writing
    rw [served.writeQueue]
    rcases served.writing with ⟨none, _⟩ | ⟨front, rest, same, starts⟩
    · simp [none] at writing
    · rw [starts] at writing
      cases writing
      exact ⟨rest, same⟩
  · intro opened nonempty
    rcases served.writing with ⟨none, empty⟩ | ⟨front, rest, same, starts⟩
    · exact absurd (served.writeQueue.trans (empty opened)) nonempty
    · exact .inl (by simp [starts])

/-- A handler that is posted from outside the peer's own operations. -/
theorem Queueing.post {handler : PeerHandler} {events : List Event}
    (queueing : Queueing options log state) (other : handler.writeCode? = none)
    (unaccepted : accepted events = []) (unwritten : written events = []) :
    Queueing options (log ++ events) { state with handlers := state.handlers ++ [handler] } := by
  have codes : writeCodes (state.handlers ++ [handler]) = writeCodes state.handlers := by
    rw [writeCodes_append]
    simp [writeCodes, other]
  refine ⟨?_, by simpa [codes] using queueing.working⟩
  rw [accepted_append, written_append, unaccepted, unwritten, List.append_nil, List.append_nil]
  simpa [codes] using queueing.outbox

/-- The completion of a write hands its handler to the queue, and that of another
operation leaves the queue alone. -/
theorem Queueing.completes {completion : PeerCompletion} {peer : Peer} {handler : PeerHandler}
    (queueing : Queueing options log state)
    (completed : Completes state.peer completion peer handler) :
    Queueing options (log ++ writtenFrames state.peer completion)
      { peer, handlers := state.handlers ++ [handler] } := by
  obtain ⟨outbox, working⟩ := queueing
  cases completed with
  | timer waiting =>
      rw [show writtenFrames state.peer (.timer _) = [] from rfl, List.append_nil]
      refine ⟨?_, ?_⟩ <;> rw [writeCodes_append, show writeCodes [_] = [] from rfl, List.append_nil]
      · exact ⟨outbox.bounded, outbox.single, outbox.front, outbox.busy, outbox.aborted,
          outbox.handled, outbox.pending⟩
      · exact working
  | @read operation errorCode bytes reading genuine filled =>
      have none : writeCodes [PeerTurn.readHandler operation errorCode bytes] = [] := by
        cases operation <;> rfl
      rw [show writtenFrames state.peer (.read errorCode bytes) = [] from rfl, List.append_nil]
      refine ⟨?_, ?_⟩ <;> rw [writeCodes_append, none, List.append_nil]
      · exact ⟨outbox.bounded, outbox.single, outbox.front, outbox.busy, outbox.aborted,
          outbox.handled, outbox.pending⟩
      · exact working
  | @write frame errorCode writing genuine =>
      obtain ⟨rest, front⟩ := outbox.front frame writing
      have single := outbox.single
      have idle : writeCodes state.handlers = [] := by
        rw [writing] at single
        exact List.eq_nil_of_length_eq_zero (by simp at single; simp [single])
      have total := outbox.pending (by simp [idle])
      have codes : writeCodes (state.handlers ++ [.write errorCode]) = [errorCode] := by
        rw [writeCodes_append, idle]
        rfl
      constructor
      · rw [codes, accepted_append, written_append]
        have none : accepted (writtenFrames state.peer (.write errorCode)) = [] := by
          unfold writtenFrames
          split
          · rw [accepted, List.filterMap_map]
            exact List.filterMap_eq_nil_iff.mpr fun _ _ => rfl
          · rfl
        rw [none, List.append_nil]
        refine ⟨outbox.bounded, by simp, by simp, by simp [front], by simp [genuine.symm], ?_, ?_⟩
        · intro succeeded
          rw [List.mem_singleton] at succeeded
          have frames : written (writtenFrames state.peer (.write .success)) = [frame] := by
            simp [writtenFrames, written, writing, Event.written?]
          rw [← succeeded, frames, total, front]
          simp
        · intro failed
          have unwritten : writtenFrames state.peer (.write errorCode) = [] := by
            unfold writtenFrames
            split
            case h_1 same =>
              cases same
              exact absurd (by simp) failed
            · rfl
          rw [unwritten, total]
          simp [written]
      · intro _ _
        rw [codes]
        exact .inr (by simp)

theorem step_queueing {state' : State} {label : Label} {events : List Event}
    (queueing : Queueing options log state)
    (step : (system options).step? state label = some (state', events)) :
    Queueing options (log ++ events) state' := by
  cases step_of_eq_some step with
  | @handler handler rest queued =>
      cases handler with
      | write errorCode => exact queueing.write queued
      | _ => exact queueing.other queued (by simp)
  | asyncClose completion => exact queueing.post rfl rfl rfl
  | asyncPushFrame frame => exact queueing.post rfl rfl rfl
  | completes completed => exact queueing.completes (completes_of_eq_some completed)

theorem started_queueing (options : CommonOptions) : Queueing options [] started where
  outbox := by
    have idle : writeCodes started.handlers = [] := rfl
    rw [idle]
    exact ⟨Nat.zero_le _, Nat.zero_le _, by simp [started], by simp, by simp, by simp, fun _ => rfl⟩
  working := by simp [Working, started]

theorem run_queueing {permitted : State → Label → Prop}
    (run : Run (system options) permitted started log state) : Queueing options log state := by
  induction run with
  | refl => exact started_queueing options
  | next _ _ step ih => exact step_queueing ih step

/-! ## The frame being written -/

/-- The frame that was being written is at the front of the queue, and it is still
being written unless the socket has been closed. -/
def Fronting (frame : Bytes) (turn : PeerTurn) : Prop :=
  (∃ more, turn.peer.writeQueue = frame :: more) ∧
    (turn.peer.writing = some frame ∨ turn.peer.isOpen = false)

theorem piece_fronting {handler : PeerHandler} {frame : Bytes} {turn after : PeerTurn}
    (piece : PeerTurn.Piece options handler turn after) (other : handler ≠ .write .success)
    (fronting : Fronting frame turn) : Fronting frame after := by
  have shut : ∀ {after : PeerTurn}, PeerTurn.Shuts turn after → Fronting frame after :=
    fun shuts => ⟨shuts.writeQueue ▸ fronting.1, .inr shuts.isOpen⟩
  have error : ∀ errorCode, Fronting frame (turn.handleError errorCode) := by
    intro errorCode
    by_cases aborted : errorCode = .operationAborted
    · rwa [PeerTurn.handleError, if_pos aborted]
    · exact shut (PeerTurn.handleError_shuts aborted turn)
  cases piece with
  | cancel name => exact fronting
  | asyncWait name => exact fronting
  | asyncRead operation =>
      unfold PeerTurn.asyncRead
      split <;> exact fronting
  | report early => exact fronting
  | handleError errorCode => exact error errorCode
  | close => exact shut (PeerTurn.close_shuts turn)
  | pushFrame pushed =>
      unfold PeerTurn.pushFrame
      split
      · split
        · exact error _
        · obtain ⟨⟨more, queued⟩, writing⟩ := fronting
          simp only [queued, List.isEmpty_cons, Bool.false_eq_true, if_false]
          exact ⟨⟨more ++ [pushed], rfl⟩, writing⟩
      · exact fronting
  | update same =>
      exact ⟨same.writeQueue ▸ fronting.1, same.writing ▸ same.isOpen ▸ fronting.2⟩
  | pop queued own => exact absurd own other
  | write _ own => exact absurd own other

/-- No step changes or removes a frame that is being written. -/
theorem Queueing.fronting {frame : Bytes} {state' : State} {label : Label} {events : List Event}
    (queueing : Queueing options log state) (writing : state.peer.writing = some frame)
    (step : (system options).step? state label = some (state', events)) :
    (∃ more, state'.peer.writeQueue = frame :: more) ∧
      (state'.peer.writing = some frame ∨ state'.peer.isOpen = false ∨
        ∃ errorCode, label = .completes (.write errorCode)) := by
  have front := queueing.outbox.front frame writing
  cases step_of_eq_some step with
  | @handler handler rest queued =>
      have other : handler ≠ .write .success := by
        rintro rfl
        have codes : writeCodes state.handlers = .success :: writeCodes rest := by
          rw [queued]
          rfl
        have alone := (codes ▸ queueing.outbox).alone
        simp [writing] at alone
      have pieces := PeerTurn.run_pieces options handler { peer := state.peer }
      have start : Fronting frame { peer := state.peer } := ⟨front, .inl writing⟩
      have kept := pieces.keeps _ (fun piece => piece_fronting piece other) start
      exact ⟨kept.1, kept.2.imp_right .inl⟩
  | asyncClose completion => exact ⟨front, .inl writing⟩
  | asyncPushFrame pushed => exact ⟨front, .inl writing⟩
  | completes completed =>
      cases completes_of_eq_some completed with
      | timer waiting => exact ⟨front, .inl writing⟩
      | read reading genuine filled => exact ⟨front, .inl writing⟩
      | @write _ errorCode _ genuine => exact ⟨front, .inr (.inr ⟨errorCode, rfl⟩)⟩

/-- The handler of a successful write closes the socket only when the queue has run
empty. -/
theorem Queueing.closeAfterWrite (queueing : Queueing options log state)
    (queued : state.handlers = .write .success :: rest) (opened : state.peer.isOpen = true)
    (closed : (PeerTurn.run options (.write .success) { peer := state.peer }).peer.isOpen = false) :
    accepted log = written log := by
  have codes : writeCodes state.handlers = .success :: writeCodes rest := by
    rw [queued]
    rfl
  have outbox := queueing.outbox
  rw [codes] at outbox
  have total := outbox.handled (by simp)
  simp only [PeerTurn.run, PeerTurn.onWrite, ne_eq, not_true_eq_false, if_false] at closed
  split at closed
  case h_1 empty => exact absurd empty (outbox.busy (by simp))
  case h_2 front rest queue =>
    have queue' : state.peer.writeQueue = front :: rest := queue
    rw [queue', List.tail_cons] at total
    split at closed
    case isTrue last =>
      have empty : rest = [] := by
        rw [Bool.and_eq_true, List.isEmpty_iff] at last
        exact last.1
      rw [total, empty, List.append_nil]
    case isFalse =>
      have kept := (PeerTurn.write_quiet _).isOpen.symm.trans closed
      simp [PeerTurn.cancel, opened] at kept

/-! ## The order of the calls -/

/-- The frame of a queued `async_push_frame`. -/
def pushed? : PeerHandler → Option Bytes
  | .pushFrame frame => some frame
  | _ => none

/-- The calls accepted so far, and those still queued, are among the calls made, in
their order. -/
def InOrder (log : List Event) (state : State) : Prop :=
  (acceptedCalls log ++ state.handlers.filterMap pushed?).Sublist (called log)

theorem pushFrame_grows (frame : Bytes) (turn : PeerTurn) :
    ∃ frames, frames.Sublist [frame] ∧
      (turn.pushFrame options frame).peer.writeQueue = turn.peer.writeQueue ++ frames := by
  unfold PeerTurn.pushFrame
  split
  · split
    · have genuine : ErrorCode.noBufferSpace ≠ .operationAborted := by decide
      have shuts := PeerTurn.handleError_shuts genuine turn
      exact ⟨[], by simp, by rw [shuts.writeQueue, List.append_nil]⟩
    · refine ⟨[frame], List.Sublist.refl _, ?_⟩
      dsimp only
      split
      · unfold PeerTurn.write
        split
        · rfl
        · split <;> rfl
      · rfl
  · exact ⟨[], by simp, by rw [List.append_nil]⟩

/-- Only the handler of a call accepts a call's frame, and no other. -/
theorem acceptedCalls_handlerEvents (options : CommonOptions) (before : Peer)
    (handler : PeerHandler) :
    (acceptedCalls (handlerEvents before handler
      (PeerTurn.run options handler { peer := before }))).Sublist (pushed? handler).toList := by
  rw [acceptedCalls, filterMap_handlerEvents (fun _ => rfl) (fun _ _ => rfl) (fun _ => rfl)
    (fun _ _ => rfl)]
  unfold acceptances
  split
  · simp
  case h_2 frame =>
    obtain ⟨frames, one, grown⟩ := @pushFrame_grows options frame { peer := before }
    rw [PeerTurn.run, grown, List.drop_left, List.filterMap_map]
    exact (List.filterMap_some (l := frames)).symm ▸ one
  · have none : ∀ frames : List Bytes,
        (frames.map (.accepted false)).filterMap Event.acceptedCall? = [] := by
      intro frames
      rw [List.filterMap_map]
      exact List.filterMap_eq_nil_iff.mpr fun _ _ => rfl
    rw [none]
    exact List.nil_sublist _

theorem pushed?_failed {handlers : List PeerHandler}
    (failed : ∀ handler ∈ handlers, handler.failed = true) : handlers.filterMap pushed? = [] := by
  refine List.filterMap_eq_nil_iff.mpr fun handler member => ?_
  cases handler with
  | pushFrame frame => cases failed _ member
  | _ => rfl

theorem step_inOrder {state' : State} {label : Label} {events : List Event}
    (ordered : InOrder log state)
    (step : (system options).step? state label = some (state', events)) :
    InOrder (log ++ events) state' := by
  unfold InOrder acceptedCalls called at *
  rw [List.filterMap_append, List.filterMap_append]
  cases step_of_eq_some step with
  | @handler handler rest queued =>
      have own := acceptedCalls_handlerEvents options state.peer handler
      have posted := pushed?_failed (PeerTurn.run_shape options handler state.peer).posted
      rw [queued, ← List.singleton_append, List.filterMap_append] at ordered
      have head : [handler].filterMap pushed? = (pushed? handler).toList := by
        cases handler <;> rfl
      rw [head] at ordered
      rw [List.filterMap_append, posted, List.append_nil, List.append_assoc]
      refine List.Sublist.trans ?_ (List.sublist_append_left _ _)
      exact ((own.append_right _).append_left _).trans ordered
  | asyncClose completion => simpa [List.filterMap_cons, pushed?] using ordered
  | asyncPushFrame frame =>
      have grown := ordered.append_right [frame]
      simpa [List.filterMap_cons, pushed?, Event.acceptedCall?, Event.called?] using grown
  | @completes completion peer handler completed =>
      have record : ∀ event ∈ writtenFrames state.peer completion,
          ∃ frame, event = .written frame := by
        unfold writtenFrames
        split <;> simp
      have unseen : (writtenFrames state.peer completion).filterMap Event.acceptedCall? = [] ∧
          (writtenFrames state.peer completion).filterMap Event.called? = [] := by
        constructor <;> refine List.filterMap_eq_nil_iff.mpr fun event member => ?_ <;>
          obtain ⟨frame, rfl⟩ := record event member <;> rfl
      have other : pushed? handler = none := by
        cases completes_of_eq_some completed with
        | timer => rfl
        | @read operation => cases operation <;> rfl
        | write => rfl
      simpa [unseen, List.filterMap_cons, other] using ordered

theorem run_inOrder {permitted : State → Label → Prop}
    (run : Run (system options) permitted started log state) : InOrder log state := by
  induction run with
  | refl => exact List.nil_sublist _
  | next _ _ step ih => exact step_inOrder ih step

/-! ## The discipline -/

/-- What holds of the write queue between two handlers.  A write is outstanding until
its handler runs. -/
structure Disciplined (options : CommonOptions) (log : List Event) (state : State) : Prop where
  bounded : state.peer.writeQueue.length ≤ options.maxSendQueueSize
  single : (writeCodes state.handlers).length + state.peer.writing.toList.length ≤ 1
  working : state.peer.isOpen = true →
    (state.peer.writeQueue ≠ [] ↔ state.peer.writing ≠ none ∨ writeCodes state.handlers ≠ [])
  front : ∀ frame, state.peer.writing = some frame → ∃ more, state.peer.writeQueue = frame :: more
  /-- The frame stays at the front until its write completes. -/
  kept : ∀ frame label events state', state.peer.writing = some frame →
    (system options).step? state label = some (state', events) →
    (∃ more, state'.peer.writeQueue = frame :: more) ∧
      (state'.peer.writing = some frame ∨ state'.peer.isOpen = false ∨
        ∃ errorCode, label = .completes (.write errorCode))
  /-- The frames written are the frames accepted, less those that still wait. -/
  total : accepted log = written log ++
    if .success ∈ writeCodes state.handlers then state.peer.writeQueue.tail
    else state.peer.writeQueue
  ordered : (acceptedCalls log).Sublist (called log)
  /-- The handler of a successful write closes the socket after the last frame. -/
  closing : ∀ rest, state.handlers = .write .success :: rest → state.peer.isOpen = true →
    (PeerTurn.run options (.write .success) { peer := state.peer }).peer.isOpen = false →
    accepted log = written log

/-- Whatever is sent, completes, expires and is closed in whatever order, the write
queue is kept in discipline. -/
theorem write_queue_disciplined (options : CommonOptions) {log : List Event} {state : State}
    (run : Run (system options) (fun _ _ => True) started log state) :
    Disciplined options log state := by
  have queueing := run_queueing run
  have outbox := queueing.outbox
  constructor
  case bounded => exact outbox.bounded
  case single => exact outbox.single
  case working =>
    intro opened
    constructor
    · exact queueing.working opened
    · rintro (writing | busy)
      · obtain ⟨frame, writing⟩ := Option.ne_none_iff_exists'.mp writing
        obtain ⟨more, queued⟩ := outbox.front frame writing
        simp [queued]
      · exact outbox.busy busy
  case front => exact outbox.front
  case kept => exact fun frame label events state' writing step => queueing.fronting writing step
  case total =>
    split
    · exact outbox.handled ‹_›
    · exact outbox.pending ‹_›
  case ordered => exact (List.sublist_append_left _ _).trans (run_inOrder run)
  case closing => exact fun rest => queueing.closeAfterWrite

/-- A health check is answered, and the socket is closed once the answer is written. -/
theorem write_queue_disciplined_health_check :
    ∃ log state, Run (system {}) (fun _ _ => True) started log state ∧
      state.peer.isOpen = false ∧ written log = [makeHealthCheckResponseFrame] ∧
      Disciplined {} log state := by
  let labels : List Label :=
    [.handler, .completes (.read .success [0, 0, 0, 1]), .handler, .handler,
      .completes (.read .success [2]), .handler, .handler, .handler,
      .completes (.write .success), .handler]
  have computed : (Run.steps? (system {}) (fun _ _ => True) started labels).map
      (fun result => (result.1.peer.isOpen, written result.2)) =
        some (false, [makeHealthCheckResponseFrame]) := by
    decide +kernel
  obtain ⟨⟨state, log⟩, ran, same⟩ := Option.map_eq_some_iff.mp computed
  have run := Run.of_steps? ran
  obtain ⟨closed, sent⟩ := Prod.mk.inj same
  exact ⟨log, state, run, closed, sent, write_queue_disciplined {} run⟩

end Peer

end UnixDomainStream
