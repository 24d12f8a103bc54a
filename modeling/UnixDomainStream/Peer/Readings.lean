import UnixDomainStream.Peer.Pieces

/-!
# One read at a time

A handler that reads starts at most one further read, so a peer never has more than one
read on its way.  After a `health_check` frame it has none.
-/

namespace UnixDomainStream

open Protocol

/-- The handler may start a read. -/
def PeerHandler.reads : PeerHandler → Bool
  | .start | .readHeader _ _ | .readBody _ _ => true
  | _ => false

/-- The body of a `health_check` frame. -/
def isHealthCheck (body : Bytes) : Bool :=
  body.head?.bind MessageType.ofByte? == some .healthCheck

namespace PeerTurn

/-- The reads outstanding, and those whose handler has been posted. -/
def readings (turn : PeerTurn) : Nat :=
  turn.posted.countP PeerHandler.reads + turn.peer.reading.isSome.toNat

/-- A piece of a handler that starts at most `count` reads. -/
def Reads (count : Nat) (before after : PeerTurn) : Prop :=
  after.readings ≤ before.readings + count

variable {before after turn : PeerTurn} {options : CommonOptions} {count : Nat}

namespace Reads

theorem refl (turn : PeerTurn) : Reads 0 turn turn := Nat.le_refl _

theorem trans {first second third : PeerTurn} {early late : Nat} (left : Reads early first second)
    (right : Reads late second third) : Reads (early + late) first third := by
  unfold Reads at left right ⊢
  omega

theorem mono {more : Nat} (reads : Reads count before after) (fewer : count ≤ more) :
    Reads more before after := Nat.le_trans reads (Nat.add_le_add_left fewer _)

theorem of_eq (posted : after.posted = before.posted)
    (reading : after.peer.reading = before.peer.reading) : Reads 0 before after := by
  simp [Reads, readings, posted, reading]

/-- A read after a piece that starts none. -/
theorem then_one {first second third : PeerTurn} (left : Reads 0 first second)
    (right : Reads 1 second third) : Reads 1 first third := left.trans right

/-- A piece that starts no read, after one that may. -/
theorem then_none {first second third : PeerTurn} (left : Reads count first second)
    (right : Reads 0 second third) : Reads count first third := left.trans right

end Reads

theorem cancel_reads (name : PeerTimer) (turn : PeerTurn) : Reads 0 turn (turn.cancel name) := by
  cases waiting : turn.peer.waits name <;>
    simp [Reads, readings, cancel, waiting, PeerHandler.reads]

theorem asyncWait_reads (name : PeerTimer) (turn : PeerTurn) :
    Reads 0 turn (turn.asyncWait name) :=
  (cancel_reads name turn).then_none (.of_eq rfl rfl)

theorem asyncRead_reads (operation : PendingRead) (turn : PeerTurn) :
    Reads 1 turn (turn.asyncRead operation) := by
  unfold asyncRead
  split
  · simp only [Reads, readings, Option.isSome_some, Bool.toNat_true]
    omega
  · have single : [readHandler operation .badDescriptor []].countP PeerHandler.reads ≤ 1 :=
      List.countP_le_length
    simp only [Reads, readings, post, List.countP_append]
    omega

/-- The read that is outstanding becomes a queued handler. -/
theorem abortSocket_reads (turn : PeerTurn) : Reads 0 turn turn.abortSocket := by
  have written : ∀ frame : Option Bytes, (frame.toList.map fun _ =>
      PeerHandler.write .operationAborted).countP PeerHandler.reads = 0 := by
    intro frame
    cases frame <;> rfl
  have read : ∀ operation : Option PendingRead, (operation.toList.map fun operation =>
      readHandler operation .operationAborted []).countP PeerHandler.reads =
        operation.isSome.toNat := by
    intro operation
    rcases operation with _ | (_ | size) <;> rfl
  simp only [Reads, readings, abortSocket, List.countP_append, written, read]
  simp

theorem closeSocket_reads (turn : PeerTurn) : Reads 0 turn turn.closeSocket := by
  have flagged : Reads 0 turn { turn with peer := { turn.peer with closedOnExecutor := true } } :=
    .of_eq rfl rfl
  have cancelled := ((((flagged.then_none (cancel_reads .readyDeadline _)).then_none
    (cancel_reads .heartbeatTimer _)).then_none (cancel_reads .heartbeatDeadline _)).then_none
    (cancel_reads .readDeadline _)).then_none (cancel_reads .writeDeadline _)
  exact cancelled.then_none (abortSocket_reads _)

theorem close_reads (turn : PeerTurn) : Reads 0 turn turn.close := by
  have closed := closeSocket_reads turn
  unfold close
  dsimp only
  split
  · exact closed.then_none (.of_eq rfl rfl)
  · exact closed

theorem handleError_reads (errorCode : ErrorCode) (turn : PeerTurn) :
    Reads 0 turn (turn.handleError errorCode) := by
  unfold handleError
  split
  · exact .refl turn
  · have reported : Reads 0 turn (turn.enqueue (.errorOccurred errorCode)) := .of_eq rfl rfl
    exact reported.then_none (close_reads _)

theorem write_reads (turn : PeerTurn) : Reads 0 turn turn.write := by
  unfold write
  split
  · exact .refl turn
  · split
    · exact (asyncWait_reads .writeDeadline turn).then_none (.of_eq rfl rfl)
    · exact .refl turn

theorem pushFrame_reads (frame : Bytes) (turn : PeerTurn) :
    Reads 0 turn (turn.pushFrame options frame) := by
  unfold pushFrame
  split
  · split
    · exact handleError_reads _ turn
    · dsimp only
      split
      · exact Reads.then_none (.of_eq rfl rfl) (write_reads _)
      · exact .of_eq rfl rfl
  · exact .refl turn

theorem ensureReady_reads (turn : PeerTurn) : Reads 0 turn turn.ensureReady := by
  unfold ensureReady
  split
  · exact .refl turn
  · have raised : Reads 0 turn { turn with peer := { turn.peer with ready := true } } :=
      .of_eq rfl rfl
    exact (raised.then_none (cancel_reads .readyDeadline _)).then_none (.of_eq rfl rfl)

theorem readHeader_reads (turn : PeerTurn) : Reads 1 turn turn.readHeader := by
  unfold readHeader
  split
  · exact (asyncWait_reads .readDeadline turn).then_one (asyncRead_reads _ _)
  · exact (Reads.refl turn).mono (Nat.zero_le _)

theorem readBody_reads (turn : PeerTurn) : Reads 1 turn turn.readBody :=
  (asyncWait_reads .readDeadline turn).then_one (asyncRead_reads _ _)

/-- A `health_check` frame ends the reading. -/
theorem readHealthCheck_reads (turn : PeerTurn) : Reads 0 turn (turn.readHealthCheck options) := by
  unfold readHealthCheck
  split
  · exact handleError_reads _ turn
  · exact Reads.then_none (.of_eq rfl rfl) (pushFrame_reads _ _)

theorem readUserData_reads (turn : PeerTurn) : Reads 1 turn (turn.readUserData options) := by
  have raised := ensureReady_reads turn
  unfold readUserData
  dsimp only
  split
  · exact (raised.then_none (handleError_reads _ _)).mono (Nat.zero_le _)
  · exact (raised.then_none (.of_eq rfl rfl)).then_one (readHeader_reads _)

theorem readRequestResponse_reads (signal : UInt64 → Bytes → Signal) (turn : PeerTurn) :
    Reads 1 turn (turn.readRequestResponse options signal) := by
  have raised := ensureReady_reads turn
  unfold readRequestResponse
  dsimp only
  split
  · exact (raised.then_none (handleError_reads _ _)).mono (Nat.zero_le _)
  · split
    · exact (raised.then_none (.of_eq rfl rfl)).mono (Nat.zero_le _)
    · exact (raised.then_none (.of_eq rfl rfl)).then_one (readHeader_reads _)

theorem readMessage_reads (turn : PeerTurn) : Reads 1 turn (turn.readMessage options) := by
  have still : ∀ {after : PeerTurn}, Reads 0 turn after → Reads 1 turn after :=
    fun reads => reads.mono (Nat.zero_le _)
  unfold readMessage
  split
  · exact still (.of_eq rfl rfl)
  · split
    · exact readHeader_reads turn
    · exact readUserData_reads turn
    · exact readRequestResponse_reads _ turn
    · exact readRequestResponse_reads _ turn
    · exact still (readHealthCheck_reads turn)
    · exact Reads.then_one (.of_eq rfl rfl) (readHeader_reads _)
    · exact still (handleError_reads _ turn)

theorem onReadHeader_reads (errorCode : ErrorCode) (bytes : Bytes) (turn : PeerTurn) :
    Reads 1 turn (turn.onReadHeader options errorCode bytes) := by
  refine (cancel_reads .readDeadline turn).then_one ?_
  have still : ∀ {after : PeerTurn}, Reads 0 (turn.cancel .readDeadline) after →
      Reads 1 (turn.cancel .readDeadline) after := fun reads => reads.mono (Nat.zero_le _)
  unfold onReadHeader
  dsimp only
  split
  · split
    · exact still (close_reads _)
    · exact still (handleError_reads _ _)
  · split
    · exact still (handleError_reads _ _)
    · split
      · exact still (handleError_reads _ _)
      · exact Reads.then_one (.of_eq rfl rfl) (readBody_reads _)

theorem frameRead_reads (bytes : Bytes) (turn : PeerTurn) : Reads 0 turn (turn.frameRead bytes) :=
  ((cancel_reads .readDeadline turn).then_none (.of_eq rfl rfl)).then_none
    (asyncWait_reads .heartbeatDeadline _)

theorem onReadBody_reads (errorCode : ErrorCode) (bytes : Bytes) (turn : PeerTurn) :
    Reads 1 turn (turn.onReadBody options errorCode bytes) := by
  have cancelled := cancel_reads .readDeadline turn
  unfold onReadBody
  dsimp only
  split
  · exact (cancelled.then_none (handleError_reads _ _)).mono (Nat.zero_le _)
  · split
    · exact (cancelled.then_none (handleError_reads _ _)).mono (Nat.zero_le _)
    · exact (frameRead_reads bytes turn).then_one (readMessage_reads _)

theorem onWrite_reads (errorCode : ErrorCode) (turn : PeerTurn) :
    Reads 0 turn (turn.onWrite errorCode) := by
  refine (cancel_reads .writeDeadline turn).then_none ?_
  unfold onWrite
  dsimp only
  split
  · exact handleError_reads _ _
  · split
    · exact .of_eq rfl rfl
    · split
      · exact Reads.then_none (.of_eq rfl rfl) (close_reads _)
      · exact Reads.then_none (.of_eq rfl rfl) (write_reads _)

theorem onTimer_reads (name : PeerTimer) (turn : PeerTurn) :
    Reads 0 turn (turn.onTimer options name) := by
  cases name with
  | readyDeadline => exact ensureReady_reads turn
  | heartbeatTimer =>
      unfold onTimer
      dsimp only
      split
      · exact (pushFrame_reads _ turn).then_none (asyncWait_reads .heartbeatTimer _)
      · exact .refl turn
  | heartbeatDeadline => exact handleError_reads _ turn
  | readDeadline => exact handleError_reads _ turn
  | writeDeadline => exact handleError_reads _ turn

/-- A handler starts at most the read that it takes the place of. -/
theorem run_reads (options : CommonOptions) (handler : PeerHandler) (turn : PeerTurn) :
    Reads handler.reads.toNat turn (run options handler turn) := by
  cases handler with
  | start =>
      have waits := ((asyncWait_reads .readyDeadline turn).then_none
        (asyncWait_reads .heartbeatTimer _)).then_none (asyncWait_reads .heartbeatDeadline _)
      exact waits.then_one (readHeader_reads _)
  | close completion => exact (close_reads turn).then_none (.of_eq rfl rfl)
  | pushFrame frame => exact pushFrame_reads frame turn
  | timer name wait errorCode =>
      simp only [run]
      split
      · exact onTimer_reads name turn
      · exact .refl turn
  | readHeader errorCode bytes => exact onReadHeader_reads errorCode bytes turn
  | readBody errorCode bytes => exact onReadBody_reads errorCode bytes turn
  | write errorCode => exact onWrite_reads errorCode turn

/-- The handler of a `health_check` frame starts none. -/
theorem run_healthCheck_reads (options : CommonOptions) {body : Bytes}
    (check : isHealthCheck body = true) {peer : Peer}
    (full : body.length = peer.readBody.length) :
    Reads 0 { peer } (run options (.readBody .success body) { peer }) := by
  have framed := @onReadBody_frame options { peer } body full
  obtain ⟨type, buffer, rfl⟩ : ∃ type buffer, body = type :: buffer := by
    cases body with
    | nil => simp [isHealthCheck] at check
    | cons type buffer => exact ⟨type, buffer, rfl⟩
  have known : MessageType.ofByte? type = some .healthCheck := by
    simpa [isHealthCheck] using check
  have message : (frameRead (type :: buffer) { peer }).readMessage options =
      (frameRead (type :: buffer) { peer }).readHealthCheck options := by
    unfold readMessage
    simp only [frameRead, refreshHeartbeatDeadline, asyncWait, cancel, known]
  simp only [run, framed, message]
  exact (frameRead_reads _ _).then_none (readHealthCheck_reads _)

end PeerTurn

/-- A read that completes becomes a queued handler. -/
theorem Peer.complete?_reads {peer after : Peer} {completion : PeerCompletion}
    {handler : PeerHandler} (completes : peer.complete? completion = some (after, handler)) :
    handler.reads.toNat + after.reading.isSome.toNat = peer.reading.isSome.toNat := by
  cases completion with
  | timer name =>
      simp only [complete?] at completes
      split at completes
      · cases completes
      · cases completes
        exact Nat.zero_add _
  | read errorCode bytes =>
      simp only [complete?] at completes
      split at completes
      · cases completes
      case h_2 operation reading =>
        split at completes
        · cases completes
        · split at completes
          · cases completes
            cases operation <;> simp [reading, PeerTurn.readHandler, PeerHandler.reads]
          · cases completes
  | write errorCode =>
      simp only [complete?] at completes
      split at completes
      · cases completes
      · split at completes
        · cases completes
        · cases completes
          exact Nat.zero_add _

end UnixDomainStream
