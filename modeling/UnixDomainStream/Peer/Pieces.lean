import UnixDomainStream.Library.Pieces
import UnixDomainStream.PeerTurn

/-!
# The pieces of a handler

Every handler of a peer is a sequence of a few elementary pieces.  What each piece
keeps, the whole handler keeps.
-/

namespace UnixDomainStream

open Protocol

/-- The signals that may come before an error. -/
def Signal.isMessage : Signal → Bool
  | .errorOccurred _ => false
  | .closed => false
  | _ => true

namespace PeerTurn

/-- An update of the flags and of the buffer, which no operation uses. -/
structure Unmoved (before after : PeerTurn) : Prop where
  isOpen : after.peer.isOpen = before.peer.isOpen
  closedOnExecutor : after.peer.closedOnExecutor = before.peer.closedOnExecutor
  waits : after.peer.waits = before.peer.waits
  nextWait : after.peer.nextWait = before.peer.nextWait
  reading : after.peer.reading = before.peer.reading
  writing : after.peer.writing = before.peer.writing
  writeQueue : after.peer.writeQueue = before.peer.writeQueue
  posted : after.posted = before.posted
  signals : after.signals = before.signals

/-- A frame leaves the write queue only in the handler of a write. -/
inductive Piece (options : CommonOptions) (handler : PeerHandler) : PeerTurn → PeerTurn → Prop where
  | cancel (name : PeerTimer) (turn : PeerTurn) : Piece options handler turn (turn.cancel name)
  | asyncWait (name : PeerTimer) (turn : PeerTurn) :
      Piece options handler turn (turn.asyncWait name)
  | asyncRead (operation : PendingRead) (turn : PeerTurn) :
      Piece options handler turn (turn.asyncRead operation)
  | report {message : Signal} (early : message.isMessage = true) (turn : PeerTurn) :
      Piece options handler turn (turn.enqueue message)
  | handleError (errorCode : ErrorCode) (turn : PeerTurn) :
      Piece options handler turn (turn.handleError errorCode)
  | close (turn : PeerTurn) : Piece options handler turn turn.close
  | pushFrame (frame : Bytes) (turn : PeerTurn) :
      Piece options handler turn (turn.pushFrame options frame)
  | update {turn after : PeerTurn} (same : Unmoved turn after) : Piece options handler turn after
  | pop {turn : PeerTurn} {front : Bytes} {rest : List Bytes}
      (queued : turn.peer.writeQueue = front :: rest) (own : handler = .write .success) :
      Piece options handler turn { turn with peer := { turn.peer with writeQueue := rest } }
  | write (turn : PeerTurn) (own : handler = .write .success) :
      Piece options handler turn turn.write

abbrev Pieces (options : CommonOptions) (handler : PeerHandler) : PeerTurn → PeerTurn → Prop :=
  Library.Pieces (Piece options handler)

variable {options : CommonOptions} {handler : PeerHandler} {turn : PeerTurn}

theorem Piece.pieces {after : PeerTurn} (piece : Piece options handler turn after) :
    Pieces options handler turn after := .single piece

theorem readHeader_pieces (options : CommonOptions) (handler : PeerHandler) (turn : PeerTurn) :
    Pieces options handler turn turn.readHeader := by
  unfold readHeader
  split
  · exact (Piece.asyncWait _ _).pieces.tail (.asyncRead _ _)
  · exact .refl

theorem readBody_pieces (options : CommonOptions) (handler : PeerHandler) (turn : PeerTurn) :
    Pieces options handler turn turn.readBody :=
  (Piece.asyncWait _ _).pieces.tail (.asyncRead _ _)

theorem ensureReady_pieces (options : CommonOptions) (handler : PeerHandler) (turn : PeerTurn) :
    Pieces options handler turn turn.ensureReady := by
  unfold ensureReady
  split
  · exact .refl
  · have raised : Piece options handler turn
        { turn with peer := { turn.peer with ready := true } } :=
      .update ⟨rfl, rfl, rfl, rfl, rfl, rfl, rfl, rfl, rfl⟩
    exact (raised.pieces.tail (.cancel _ _)).tail (.report rfl _)

theorem ensureReady_readBody (turn : PeerTurn) :
    turn.ensureReady.peer.readBody = turn.peer.readBody := by
  unfold ensureReady
  split <;> rfl

theorem readUserData_pieces (options : CommonOptions) (handler : PeerHandler) (turn : PeerTurn) :
    Pieces options handler turn (turn.readUserData options) := by
  unfold readUserData
  dsimp only
  split
  · exact (ensureReady_pieces ..).tail (.handleError _ _)
  · exact ((ensureReady_pieces ..).tail (.report rfl _)).trans (readHeader_pieces ..)

theorem readRequestResponse_pieces (options : CommonOptions) (handler : PeerHandler)
    {signal : UInt64 → Bytes → Signal}
    (early : ∀ requestId buffer, (signal requestId buffer).isMessage = true) (turn : PeerTurn) :
    Pieces options handler turn (turn.readRequestResponse options signal) := by
  unfold readRequestResponse
  dsimp only
  split
  · exact (ensureReady_pieces ..).tail (.handleError _ _)
  · split
    · exact (ensureReady_pieces ..).tail (.update ⟨rfl, rfl, rfl, rfl, rfl, rfl, rfl, rfl, rfl⟩)
    · exact ((ensureReady_pieces ..).tail (.report (early _ _) _)).trans (readHeader_pieces ..)

theorem readHealthCheck_pieces (options : CommonOptions) (handler : PeerHandler)
    (turn : PeerTurn) : Pieces options handler turn (turn.readHealthCheck options) := by
  unfold readHealthCheck
  split
  · exact (Piece.handleError _ _).pieces
  · have classified : Piece options handler turn
        { turn with peer := { turn.peer with closeAfterWrite := true } } :=
      .update ⟨rfl, rfl, rfl, rfl, rfl, rfl, rfl, rfl, rfl⟩
    exact classified.pieces.tail (.pushFrame _ _)

theorem readMessage_pieces (options : CommonOptions) (handler : PeerHandler) (turn : PeerTurn) :
    Pieces options handler turn (turn.readMessage options) := by
  unfold readMessage
  split
  · refine Piece.pieces (.update ?_)
    exact ⟨rfl, rfl, rfl, rfl, rfl, rfl, rfl, rfl, rfl⟩
  · split
    · exact readHeader_pieces ..
    · exact readUserData_pieces ..
    · exact readRequestResponse_pieces options handler (fun _ _ => rfl) turn
    · exact readRequestResponse_pieces options handler (fun _ _ => rfl) turn
    · exact readHealthCheck_pieces ..
    · exact (Piece.report rfl _).pieces.trans (readHeader_pieces ..)
    · exact (Piece.handleError _ _).pieces

theorem onReadHeader_pieces (options : CommonOptions) (handler : PeerHandler)
    (errorCode : ErrorCode) (bytes : Bytes) (turn : PeerTurn) :
    Pieces options handler (turn.cancel .readDeadline)
      (turn.onReadHeader options errorCode bytes) := by
  unfold onReadHeader
  dsimp only
  split
  · split
    · exact (Piece.close _).pieces
    · exact (Piece.handleError _ _).pieces
  · split
    · exact (Piece.handleError _ _).pieces
    · split
      · exact (Piece.handleError _ _).pieces
      · refine Relation.ReflTransGen.trans ?_ (readBody_pieces ..)
        exact Piece.pieces (.update ⟨rfl, rfl, rfl, rfl, rfl, rfl, rfl, rfl, rfl⟩)

/-- A frame has been read completely. -/
def frameRead (bytes : Bytes) (turn : PeerTurn) : PeerTurn :=
  let turn := turn.cancel .readDeadline
  { turn with peer := { turn.peer with readBody := bytes } }.refreshHeartbeatDeadline

theorem onReadBody_frame {bytes : Bytes} (full : bytes.length = turn.peer.readBody.length) :
    turn.onReadBody options .success bytes = (turn.frameRead bytes).readMessage options := by
  have same : (turn.cancel .readDeadline).peer.readBody.length = bytes.length := full.symm
  simp [onReadBody, frameRead, same]

theorem onReadBody_pieces (options : CommonOptions) (handler : PeerHandler)
    (errorCode : ErrorCode) (bytes : Bytes) (turn : PeerTurn) :
    Pieces options handler (turn.cancel .readDeadline)
      (turn.onReadBody options errorCode bytes) := by
  unfold onReadBody
  dsimp only
  split
  · exact (Piece.handleError _ _).pieces
  · split
    · exact (Piece.handleError _ _).pieces
    · refine Relation.ReflTransGen.trans ?_ (readMessage_pieces ..)
      refine Relation.ReflTransGen.tail ?_ (.asyncWait _ _)
      exact Piece.pieces (.update ⟨rfl, rfl, rfl, rfl, rfl, rfl, rfl, rfl, rfl⟩)

theorem onWrite_pieces (options : CommonOptions) (errorCode : ErrorCode) (turn : PeerTurn) :
    Pieces options (.write errorCode) (turn.cancel .writeDeadline) (turn.onWrite errorCode) := by
  unfold onWrite
  dsimp only
  split
  · exact (Piece.handleError _ _).pieces
  case isFalse succeeded =>
    rw [ne_eq, Decidable.not_not] at succeeded
    subst succeeded
    split
    · exact Piece.pieces (.update ⟨rfl, rfl, rfl, rfl, rfl, rfl, rfl, rfl, rfl⟩)
    case h_2 front rest queued =>
      have popped : Pieces options (.write .success) (turn.cancel .writeDeadline) _ :=
        (Piece.pop queued rfl).pieces
      split
      · exact popped.tail (.close _)
      · exact popped.tail (.write _ rfl)

/-- Every handler is a sequence of pieces. -/
theorem run_pieces (options : CommonOptions) (handler : PeerHandler) (turn : PeerTurn) :
    Pieces options handler turn (run options handler turn) := by
  cases handler with
  | start =>
      have waits : Pieces options .start turn
          ((turn.asyncWait .readyDeadline).asyncWait .heartbeatTimer) :=
        (Piece.asyncWait .readyDeadline turn).pieces.tail (.asyncWait .heartbeatTimer _)
      exact (waits.tail (.asyncWait .heartbeatDeadline _)).trans (readHeader_pieces ..)
  | close completion =>
      exact (Piece.close turn).pieces.tail
        (.update ⟨rfl, rfl, rfl, rfl, rfl, rfl, rfl, rfl, rfl⟩)
  | pushFrame frame => exact (Piece.pushFrame frame turn).pieces
  | timer name wait errorCode =>
      simp only [run]
      split
      · cases name with
        | readyDeadline => exact ensureReady_pieces ..
        | heartbeatTimer =>
            simp only [onTimer]
            split
            · exact (Piece.pushFrame _ _).pieces.tail (.asyncWait _ _)
            · exact .refl
        | heartbeatDeadline => exact (Piece.handleError _ _).pieces
        | readDeadline => exact (Piece.handleError _ _).pieces
        | writeDeadline => exact (Piece.handleError _ _).pieces
      · exact .refl
  | readHeader errorCode bytes =>
      exact (Piece.cancel _ _).pieces.trans (onReadHeader_pieces ..)
  | readBody errorCode bytes => exact (Piece.cancel _ _).pieces.trans (onReadBody_pieces ..)
  | write errorCode => exact (Piece.cancel _ _).pieces.trans (onWrite_pieces ..)

end PeerTurn

end UnixDomainStream
