import UnixDomainStream.Peer.Signals

/-!
# Deadlines

A deadline watches an operation from the moment it is armed.  A handler that
finishes the operation cancels the deadline or arms it anew, but does not recall a
handler that was queued when the deadline expired.
-/

namespace UnixDomainStream

open Library Protocol

namespace PeerTurn

/-! ## The waits of a handler -/

/-- The waits of a handler in progress are those of the peer before it, or new. -/
structure Waits (before : Peer) (turn : PeerTurn) : Prop where
  nextWait : before.nextWait ≤ turn.peer.nextWait
  waits : ∀ name wait, turn.peer.waits name = some wait →
    (before.waits name = some wait ∨ before.nextWait ≤ wait) ∧ wait < turn.peer.nextWait

/-- A wait of the given timer is new. -/
def Renewed (before : Peer) (name : PeerTimer) (turn : PeerTurn) : Prop :=
  before.nextWait ≤ turn.peer.nextWait ∧
    ∀ wait, turn.peer.waits name = some wait → before.nextWait ≤ wait

variable {before : Peer} {turn : PeerTurn}

theorem Waits.cancel (waits : Waits before turn) (name : PeerTimer) :
    Waits before (turn.cancel name) := by
  refine ⟨waits.nextWait, fun other wait waiting => ?_⟩
  by_cases same : other = name
  · simp [PeerTurn.cancel, same] at waiting
  · simp only [PeerTurn.cancel, Function.update_of_ne same] at waiting
    exact waits.waits other wait waiting

theorem Waits.asyncWait (waits : Waits before turn) (name : PeerTimer) :
    Waits before (turn.asyncWait name) := by
  have next := waits.nextWait
  refine ⟨?_, fun other wait waiting => ?_⟩
  · simp only [PeerTurn.asyncWait, PeerTurn.cancel]
    omega
  by_cases same : other = name
  · subst same
    simp only [PeerTurn.asyncWait, PeerTurn.cancel, Function.update_self, Option.some.injEq]
      at waiting
    simp only [PeerTurn.asyncWait, PeerTurn.cancel]
    omega
  · simp only [PeerTurn.asyncWait, PeerTurn.cancel, Function.update_of_ne same] at waiting
    obtain ⟨source, bound⟩ := waits.waits other wait waiting
    exact ⟨source, Nat.lt_succ_of_lt bound⟩

theorem Renewed.cancel (renewed : Renewed before name turn) (other : PeerTimer) :
    Renewed before name (turn.cancel other) := by
  refine ⟨renewed.1, fun wait waiting => renewed.2 wait ?_⟩
  by_cases same : name = other
  · simp [PeerTurn.cancel, same] at waiting
  · simpa only [PeerTurn.cancel, Function.update_of_ne same] using waiting

theorem Renewed.asyncWait (renewed : Renewed before name turn) (other : PeerTimer) :
    Renewed before name (turn.asyncWait other) := by
  have next := renewed.1
  refine ⟨?_, fun wait waiting => ?_⟩
  · simp only [PeerTurn.asyncWait, PeerTurn.cancel]
    omega
  by_cases same : name = other
  · subst same
    simp only [PeerTurn.asyncWait, PeerTurn.cancel, Function.update_self, Option.some.injEq]
      at waiting
    omega
  · simp only [PeerTurn.asyncWait, PeerTurn.cancel, Function.update_of_ne same] at waiting
    exact renewed.2 wait waiting

/-- A property of a handler in progress that every timer operation keeps, and
that is about the timers alone. -/
structure TimerProperty (kept : PeerTurn → Prop) : Prop where
  congr : ∀ {turn after : PeerTurn}, kept turn → after.peer.waits = turn.peer.waits →
    after.peer.nextWait = turn.peer.nextWait → kept after
  cancel : ∀ {turn : PeerTurn}, kept turn → ∀ name, kept (turn.cancel name)
  asyncWait : ∀ {turn : PeerTurn}, kept turn → ∀ name, kept (turn.asyncWait name)

theorem waits_timerProperty (before : Peer) : TimerProperty (Waits before) where
  congr kept waits next := ⟨next ▸ kept.nextWait, by rw [waits, next]; exact kept.waits⟩
  cancel kept := kept.cancel
  asyncWait kept := kept.asyncWait

theorem renewed_timerProperty (before : Peer) (name : PeerTimer) :
    TimerProperty (Renewed before name) where
  congr kept waits next := by
    rw [Renewed, waits, next]
    exact kept
  cancel kept := kept.cancel
  asyncWait kept := kept.asyncWait

namespace TimerProperty

variable {kept : PeerTurn → Prop} (timer : TimerProperty kept)

include timer

theorem close (before : kept turn) : kept turn.close := by
  have executed : kept { turn with peer := { turn.peer with closedOnExecutor := true } } :=
    timer.congr before rfl rfl
  have cancelled := timer.cancel (timer.cancel (timer.cancel (timer.cancel (timer.cancel executed
    .readyDeadline) .heartbeatTimer) .heartbeatDeadline) .readDeadline) .writeDeadline
  have socket : kept turn.closeSocket := timer.congr cancelled rfl rfl
  unfold PeerTurn.close
  dsimp only
  split
  · exact timer.congr socket rfl rfl
  · exact socket

theorem handleError (before : kept turn) (errorCode : ErrorCode) :
    kept (turn.handleError errorCode) := by
  unfold PeerTurn.handleError
  split
  · exact before
  · exact timer.close (timer.congr before rfl rfl)

theorem write (before : kept turn) : kept turn.write := by
  unfold PeerTurn.write
  split
  · exact before
  · split
    · exact timer.congr (timer.asyncWait before .writeDeadline) rfl rfl
    · exact before

theorem piece {options : CommonOptions} {handler : PeerHandler} {after : PeerTurn}
    (piece : Piece options handler turn after) (before : kept turn) : kept after := by
  cases piece with
  | cancel name => exact timer.cancel before name
  | asyncWait name => exact timer.asyncWait before name
  | asyncRead operation =>
      unfold PeerTurn.asyncRead
      split
      · exact timer.congr before rfl rfl
      · exact timer.congr before rfl rfl
  | report => exact timer.congr before rfl rfl
  | handleError errorCode => exact timer.handleError before errorCode
  | close => exact timer.close before
  | pushFrame frame =>
      unfold PeerTurn.pushFrame
      split
      · split
        · exact timer.handleError before _
        · dsimp only
          split
          · exact timer.write (timer.congr before rfl rfl)
          · exact timer.congr before rfl rfl
      · exact before
  | update same => exact timer.congr before same.waits same.nextWait
  | pop => exact timer.congr before rfl rfl
  | write => exact timer.write before

end TimerProperty

theorem run_waits (options : CommonOptions) (handler : PeerHandler)
    (fresh : ∀ name wait, before.waits name = some wait → wait < before.nextWait) :
    Waits before (run options handler { peer := before }) := by
  have start : Waits before { peer := before } :=
    ⟨le_rfl, fun name wait waiting => ⟨.inl waiting, fresh name wait waiting⟩⟩
  exact (run_pieces options handler _).keeps _ (waits_timerProperty before).piece start

theorem cancel_renewed (before : Peer) (name : PeerTimer) :
    Renewed before name (({ peer := before } : PeerTurn).cancel name) := by
  refine ⟨le_rfl, fun wait waiting => ?_⟩
  simp [PeerTurn.cancel] at waiting

/-- A handler that finishes the operation of a deadline cancels the deadline, and
may arm it anew. -/
theorem run_renewed (options : CommonOptions) {handler : PeerHandler} {name : PeerTimer}
    (finishes : name ∈ handler.finishes before) :
    Renewed before name (run options handler { peer := before }) := by
  have timer := renewed_timerProperty before name
  cases handler with
  | readHeader errorCode bytes =>
      simp only [PeerHandler.finishes] at finishes
      split at finishes
      · rw [List.mem_singleton] at finishes
        subst finishes
        exact (onReadHeader_pieces options .start errorCode bytes _).keeps _ timer.piece
          (cancel_renewed before _)
      · cases finishes
  | readBody errorCode bytes =>
      simp only [PeerHandler.finishes] at finishes
      have read : name = .readDeadline → Renewed before name
          (run options (.readBody errorCode bytes) { peer := before }) := by
        rintro rfl
        exact (onReadBody_pieces options .start errorCode bytes _).keeps _ timer.piece
          (cancel_renewed before _)
      split at finishes
      case isTrue succeeded =>
        subst succeeded
        split at finishes
        case isTrue full =>
          rcases List.mem_cons.mp finishes with same | rest
          · exact read same
          · have same := List.mem_singleton.mp rest
            subst same
            have framed := @onReadBody_frame options { peer := before } bytes full
            simp only [run, framed]
            refine (readMessage_pieces options .start _).keeps _ timer.piece ?_
            refine ⟨Nat.le_succ _, fun wait waiting => ?_⟩
            simp only [frameRead, refreshHeartbeatDeadline, PeerTurn.asyncWait, PeerTurn.cancel,
              Function.update_self, Option.some.injEq] at waiting
            omega
        case isFalse => exact read (List.mem_singleton.mp finishes)
      case isFalse => cases finishes
  | write errorCode =>
      simp only [PeerHandler.finishes] at finishes
      split at finishes
      · rw [List.mem_singleton] at finishes
        subst finishes
        exact (onWrite_pieces options errorCode _).keeps _ timer.piece (cancel_renewed before _)
      · cases finishes
  | _ => cases finishes

end PeerTurn

/-- A queued handler of an expired timer. -/
def PeerHandler.expires (name : PeerTimer) : PeerHandler → Bool
  | .timer other _ errorCode => other == name && errorCode == .success
  | _ => false

namespace Peer

/-- A wait was armed, and its operation has not finished since. -/
def Watched (log : List Event) (name : PeerTimer) (wait : Nat) : Prop :=
  ∃ early late, log = early ++ .armed name wait :: late ∧ .finished name ∉ late

/-- No handler that finishes an operation on the open socket runs while the handler
of its expired deadline is queued. -/
def Timely (state : State) : Label → Prop
  | .handler => state.peer.isOpen = true → ∀ handler ∈ state.handlers.head?,
      ∀ name ∈ handler.finishes state.peer, state.handlers.tail.any (·.expires name) = false
  | _ => True

instance (state : State) (label : Label) : Decidable (Timely state label) :=
  match label with
  | .handler => inferInstanceAs (Decidable (_ → _))
  | .asyncClose _ => .isTrue trivial
  | .asyncPushFrame _ => .isTrue trivial
  | .completes _ => .isTrue trivial

theorem Watched.append {log events : List Event} {name : PeerTimer} {wait : Nat}
    (watched : Watched log name wait) (unfinished : .finished name ∉ events) :
    Watched (log ++ events) name wait := by
  obtain ⟨early, late, rfl, running⟩ := watched
  refine ⟨early, late ++ events, by simp, ?_⟩
  rw [List.mem_append]
  exact fun finished => finished.elim running unfinished

/-- Every timeout in the log is of a watched wait. -/
def Justified (log : List Event) : Prop :=
  ∀ before name wait after, log = before ++ .timedOut name wait :: after →
    Watched before name wait

theorem Justified.append {log events : List Event} (justified : Justified log)
    (silent : ∀ name wait, .timedOut name wait ∉ events) : Justified (log ++ events) := by
  intro before name wait after split
  rcases List.append_eq_append_iff.mp split with ⟨more, rfl, rest⟩ | ⟨more, rfl, rest⟩
  · have member : .timedOut name wait ∈ events := by simp [rest]
    exact absurd member (silent name wait)
  · cases more with
    | nil =>
        simp only [List.nil_append] at rest
        have member : .timedOut name wait ∈ events := by simp [← rest]
        exact absurd member (silent name wait)
    | cons event more =>
        obtain ⟨rfl, _⟩ := List.cons.inj rest
        exact justified before name wait more rfl

theorem Justified.timedOut {log : List Event} (justified : Justified log) {name : PeerTimer}
    {wait : Nat} (watched : Watched log name wait) :
    Justified (log ++ [.timedOut name wait]) := by
  intro before other number after split
  rcases List.append_eq_append_iff.mp split with ⟨more, rfl, rest⟩ | ⟨more, rfl, rest⟩
  · cases more with
    | nil =>
        obtain ⟨same, _⟩ := List.cons.inj rest
        cases same
        simpa using watched
    | cons event more => simp at rest
  · cases more with
    | nil =>
        obtain ⟨same, _⟩ := List.cons.inj rest
        cases same
        simpa using watched
    | cons event more =>
        obtain ⟨rfl, _⟩ := List.cons.inj rest
        exact justified before other number more rfl

/-- The waits of an open peer are watched, and so are those whose expired handler
is still queued. -/
structure Watching (log : List Event) (state : State) : Prop where
  fresh : ∀ name wait, state.peer.waits name = some wait → wait < state.peer.nextWait
  armed : state.peer.isOpen = true → ∀ name wait, state.peer.waits name = some wait →
    Watched log name wait
  expired : state.peer.isOpen = true → ∀ name wait,
    .timer name wait .success ∈ state.handlers → Watched log name wait
  justified : Justified log

theorem armings_finished (before after : Peer) (name : PeerTimer) :
    .finished name ∉ armings before after := by
  intro member
  obtain ⟨other, _, wait⟩ := List.mem_filterMap.mp member
  split at wait
  · cases wait
  · obtain ⟨number, _, same⟩ := Option.map_eq_some_iff.mp wait
    cases same

theorem mem_armings {before after : Peer} {name : PeerTimer} {wait : Nat}
    (waiting : after.waits name = some wait) (renewed : before.waits name ≠ some wait) :
    .armed name wait ∈ armings before after := by
  refine List.mem_filterMap.mpr ⟨name, PeerTimer.mem_all name, ?_⟩
  rw [waiting, if_neg (Ne.symm renewed)]
  rfl

/-- The records of a handler that come after those of what it finished. -/
def lateEvents (before : Peer) (handler : PeerHandler) (turn : PeerTurn) : List Event :=
  armings before turn.peer ++ acceptances before handler turn.peer ++ turn.signals.map .signal

theorem handlerEvents_eq (before : Peer) (handler : PeerHandler) (turn : PeerTurn) :
    handlerEvents before handler turn = timedOuts before handler turn ++
      ((handler.finishes before).map .finished ++ lateEvents before handler turn) := by
  simp [handlerEvents, lateEvents]

theorem acceptances_accepted {before after : Peer} {handler : PeerHandler} {event : Event}
    (member : event ∈ acceptances before handler after) :
    ∃ byCall frame, event = .accepted byCall frame := by
  unfold acceptances at member
  split at member
  · cases member
  · obtain ⟨frame, _, rfl⟩ := List.mem_map.mp member
    exact ⟨true, frame, rfl⟩
  · obtain ⟨frame, _, rfl⟩ := List.mem_map.mp member
    exact ⟨false, frame, rfl⟩

theorem lateEvents_finished (before : Peer) (handler : PeerHandler) (turn : PeerTurn)
    (name : PeerTimer) : .finished name ∉ lateEvents before handler turn := by
  intro member
  simp only [lateEvents, List.mem_append] at member
  rcases member with (armed | accepted) | signalled
  · exact armings_finished before turn.peer name armed
  · obtain ⟨byCall, frame, same⟩ := acceptances_accepted accepted
    cases same
  · obtain ⟨sent, _, same⟩ := List.mem_map.mp signalled
    cases same

theorem laterEvents_timedOut (before : Peer) (handler : PeerHandler) (turn : PeerTurn)
    (name : PeerTimer) (wait : Nat) :
    .timedOut name wait ∉
      (handler.finishes before).map Event.finished ++ lateEvents before handler turn := by
  intro member
  simp only [lateEvents, List.mem_append] at member
  rcases member with finished | (armed | accepted) | signalled
  · obtain ⟨other, _, same⟩ := List.mem_map.mp finished
    cases same
  · obtain ⟨other, _, number⟩ := List.mem_filterMap.mp armed
    split at number
    · cases number
    · obtain ⟨value, _, same⟩ := Option.map_eq_some_iff.mp number
      cases same
  · obtain ⟨byCall, frame, same⟩ := acceptances_accepted accepted
    cases same
  · obtain ⟨sent, _, same⟩ := List.mem_map.mp signalled
    cases same

/-- A handler times a deadline out only if it is the expired handler at the head. -/
theorem timedOuts_cases (options : CommonOptions) (before : Peer) (handler : PeerHandler) :
    timedOuts before handler (PeerTurn.run options handler { peer := before }) = [] ∨
      ∃ name wait, handler = .timer name wait .success ∧ before.isOpen = true ∧
        timedOuts before handler (PeerTurn.run options handler { peer := before }) =
          [.timedOut name wait] := by
  cases handler with
  | timer name wait errorCode =>
      by_cases expired : errorCode = .success
      · subst expired
        simp only [timedOuts]
        split
        case isTrue closes =>
          simp only [Bool.and_eq_true] at closes
          exact .inr ⟨name, wait, rfl, closes.1.1, rfl⟩
        case isFalse => exact .inl rfl
      · left
        simp [timedOuts, PeerTurn.run, expired]
  | _ => exact .inl rfl

theorem handlerEvents_finished {before : Peer} {handler : PeerHandler} {turn : PeerTurn}
    {name : PeerTimer} (running : name ∉ handler.finishes before) :
    .finished name ∉ handlerEvents before handler turn := by
  intro member
  rw [handlerEvents_eq, List.mem_append, List.mem_append] at member
  rcases member with late | finished | later
  · unfold timedOuts at late
    split at late
    · split at late
      · simp at late
      · cases late
    · cases late
  · obtain ⟨other, listed, same⟩ := List.mem_map.mp finished
    cases same
    exact running listed
  · exact lateEvents_finished _ _ _ _ later

/-- A wait armed by a handler is watched from then on. -/
theorem watched_of_armed {log : List Event} {before : Peer} {handler : PeerHandler}
    {turn : PeerTurn} {name : PeerTimer} {wait : Nat}
    (waiting : turn.peer.waits name = some wait) (renewed : before.waits name ≠ some wait) :
    Watched (log ++ handlerEvents before handler turn) name wait := by
  have armed : .armed name wait ∈ lateEvents before handler turn := by
    simp [lateEvents, mem_armings waiting renewed]
  obtain ⟨early, late, split⟩ := List.append_of_mem armed
  refine ⟨log ++ (timedOuts before handler turn ++
    ((handler.finishes before).map .finished ++ early)), late, ?_, fun finished => ?_⟩
  · simp [handlerEvents_eq, split]
  · exact lateEvents_finished before handler turn name (by simp [split, finished])

/-- A handler that runs keeps the waits watched, if it is timely. -/
theorem handler_watching {options : CommonOptions} {log : List Event} {state : State}
    {handler : PeerHandler} {rest : List PeerHandler} (watching : Watching log state)
    (queued : state.handlers = handler :: rest) (timely : Timely state .handler) :
    Watching
      (log ++ handlerEvents state.peer handler
        (PeerTurn.run options handler { peer := state.peer }))
      { peer := (PeerTurn.run options handler { peer := state.peer }).peer
        handlers := rest ++ (PeerTurn.run options handler { peer := state.peer }).posted } := by
  have shape := PeerTurn.run_shape options handler state.peer
  have waits := PeerTurn.run_waits options handler watching.fresh
  have renewed : ∀ name ∈ handler.finishes state.peer, PeerTurn.Renewed state.peer name
      (PeerTurn.run options handler { peer := state.peer }) := fun name finishes =>
    PeerTurn.run_renewed options finishes
  have late := timedOuts_cases options state.peer handler
  generalize PeerTurn.run options handler { peer := state.peer } = turn
    at shape waits renewed late ⊢
  refine ⟨fun name wait waiting => (waits.waits name wait waiting).2, ?_, ?_, ?_⟩
  · intro opened name wait waiting
    by_cases old : state.peer.waits name = some wait
    · have running : name ∉ handler.finishes state.peer := by
        intro finishes
        have bound := (renewed name finishes).2 wait waiting
        have fresh := watching.fresh name wait old
        omega
      exact (watching.armed (shape.isOpen opened) name wait old).append
        (handlerEvents_finished running)
    · exact watched_of_armed waiting old
  · intro opened name wait member
    rcases List.mem_append.mp member with old | new
    · have running : name ∉ handler.finishes state.peer := by
        intro finishes
        have recalled := timely (shape.isOpen opened) handler (by simp [queued]) name finishes
        rw [queued, List.tail_cons, List.any_eq_false] at recalled
        exact recalled _ old (by simp [PeerHandler.expires])
      exact (watching.expired (shape.isOpen opened) name wait (by simp [queued, old])).append
        (handlerEvents_finished running)
    · have failed := shape.posted _ new
      simp [PeerHandler.failed] at failed
  · rw [handlerEvents_eq, ← List.append_assoc]
    refine Justified.append ?_ (laterEvents_timedOut _ _ _)
    rcases late with none | ⟨name, wait, rfl, opened, one⟩
    · rw [none, List.append_nil]
      exact watching.justified
    · rw [one]
      exact watching.justified.timedOut (watching.expired opened name wait (by simp [queued]))

/-- A completed operation leaves the waits watched; the handler of a wait that
expires is queued. -/
theorem completes_watching {log : List Event} {state : State} {completion : PeerCompletion}
    {peer : Peer} {handler : PeerHandler} (watching : Watching log state)
    (completes : Completes state.peer completion peer handler) :
    Watching (log ++ writtenFrames state.peer completion)
      { peer, handlers := state.handlers ++ [handler] } := by
  have silent : ∀ event ∈ writtenFrames state.peer completion, ∃ frame, event = .written frame := by
    intro event member
    unfold writtenFrames at member
    split at member
    · obtain ⟨frame, _, rfl⟩ := List.mem_map.mp member
      exact ⟨frame, rfl⟩
    · cases member
  have unfinished : ∀ name, .finished name ∉ writtenFrames state.peer completion := by
    intro name member
    obtain ⟨frame, same⟩ := silent _ member
    cases same
  have justified : Justified (log ++ writtenFrames state.peer completion) := by
    refine watching.justified.append fun name wait member => ?_
    obtain ⟨frame, same⟩ := silent _ member
    cases same
  have kept : ∀ {name wait}, Watched log name wait →
      Watched (log ++ writtenFrames state.peer completion) name wait := fun watched =>
    watched.append (unfinished _)
  cases completes with
  | @timer own number waiting =>
      have remain : ∀ name wait, Function.update state.peer.waits own none name = some wait →
          state.peer.waits name = some wait := by
        intro name wait waiting'
        by_cases same : name = own
        · simp [same] at waiting'
        · rwa [Function.update_of_ne same] at waiting'
      refine ⟨fun name wait waiting' => watching.fresh name wait (remain name wait waiting'), ?_,
        ?_, justified⟩
      · exact fun opened name wait waiting' =>
          kept (watching.armed opened name wait (remain name wait waiting'))
      · intro opened name wait member
        rcases List.mem_append.mp member with old | new
        · exact kept (watching.expired opened name wait old)
        · rw [List.mem_singleton] at new
          cases new
          exact kept (watching.armed opened own number waiting)
  | @read operation errorCode bytes reading genuine filled =>
      refine ⟨watching.fresh, fun opened name wait waiting =>
        kept (watching.armed opened name wait waiting), ?_, justified⟩
      intro opened name wait member
      rcases List.mem_append.mp member with old | new
      · exact kept (watching.expired opened name wait old)
      · cases operation <;> simp [PeerTurn.readHandler] at new
  | write writing genuine =>
      refine ⟨watching.fresh, fun opened name wait waiting =>
        kept (watching.armed opened name wait waiting), ?_, justified⟩
      intro opened name wait member
      rcases List.mem_append.mp member with old | new
      · exact kept (watching.expired opened name wait old)
      · simp at new

theorem Watching.post {log : List Event} {state : State} (watching : Watching log state)
    {handler : PeerHandler} {events : List Event}
    (other : ∀ name wait, handler ≠ .timer name wait .success)
    (unfinished : ∀ name, .finished name ∉ events)
    (silent : ∀ name wait, .timedOut name wait ∉ events) :
    Watching (log ++ events) { state with handlers := state.handlers ++ [handler] } := by
  refine ⟨watching.fresh, fun opened name wait waiting =>
    (watching.armed opened name wait waiting).append (unfinished name), ?_,
    watching.justified.append silent⟩
  intro opened name wait member
  rcases List.mem_append.mp member with old | new
  · exact (watching.expired opened name wait old).append (unfinished name)
  · exact absurd (List.mem_singleton.mp new).symm (other name wait)

theorem step_watching {options : CommonOptions} {log : List Event} {state state' : State}
    {label : Label} {events : List Event} (watching : Watching log state)
    (timely : Timely state label)
    (step : (system options).step? state label = some (state', events)) :
    Watching (log ++ events) state' := by
  cases step_of_eq_some step with
  | handler queued => exact handler_watching watching queued timely
  | asyncClose completion => exact watching.post (by simp) (by simp) (by simp)
  | asyncPushFrame frame => exact watching.post (by simp) (by simp) (by simp)
  | completes completed => exact completes_watching watching (completes_of_eq_some completed)

theorem run_watching {options : CommonOptions} {log : List Event} {state : State}
    (run : Run (system options) Timely started log state) : Watching log state := by
  induction run with
  | refl =>
      refine ⟨by simp [started], by simp [started], by simp [started], ?_⟩
      intro before name wait after split
      simp at split
  | next _ timely step ih => exact step_watching ih timely step

/-- In every run in which no operation finishes while the handler of its expired
deadline is queued, a deadline closes the socket only if the operation that armed
it has not finished since. -/
theorem deadlines_only_late (options : CommonOptions) {log : List Event} {state : State}
    (run : Run (system options) Timely started log state) {before after : List Event}
    {name : PeerTimer} {wait : Nat} (fired : log = before ++ .timedOut name wait :: after) :
    ∃ early late, before = early ++ .armed name wait :: late ∧ .finished name ∉ late :=
  (run_watching run).justified before name wait after fired

/-- Nothing is read for the read timeout. -/
theorem deadlines_only_late_silence :
    ∃ log state, Run (system {}) Timely started log state ∧
      ∃ before after, log = before ++ .timedOut .readDeadline 3 :: after ∧
        ∃ early late, before = early ++ .armed .readDeadline 3 :: late ∧
          .finished .readDeadline ∉ late := by
  let labels : List Label := [.handler, .completes (.timer .readDeadline), .handler]
  let before : List Event :=
    [.armed .readyDeadline 0, .armed .heartbeatTimer 1, .armed .heartbeatDeadline 2,
      .armed .readDeadline 3]
  let after : List Event := [.signal (.errorOccurred .timedOut), .signal .closed]
  have computed : (Run.steps? (system {}) Timely started labels).map
      (fun result => ((), result.2)) = some ((), before ++ .timedOut .readDeadline 3 :: after) := by
    decide +kernel
  obtain ⟨⟨state, log⟩, ran, same⟩ := Option.map_eq_some_iff.mp computed
  have run := Run.of_steps? ran
  have fired : log = before ++ .timedOut .readDeadline 3 :: after := (Prod.mk.inj same).2
  exact ⟨log, state, run, before, after, fired, deadlines_only_late {} run fired⟩

/-- A wait whose only arming is followed by the end of its operation is not watched. -/
theorem not_watched {early late : List Event} {name : PeerTimer} {wait : Nat}
    (once : .armed name wait ∉ late) (finished : .finished name ∈ late) :
    ¬ Watched (early ++ .armed name wait :: late) name wait := by
  rintro ⟨early', late', split, running⟩
  rcases List.append_eq_append_iff.mp split with ⟨more, _, rest⟩ | ⟨more, _, rest⟩
  · cases more with
    | nil =>
        obtain ⟨_, rfl⟩ := List.cons.inj rest
        exact running finished
    | cons event more =>
        obtain ⟨_, rfl⟩ := List.cons.inj rest
        exact once (by simp)
  · cases more with
    | nil =>
        obtain ⟨_, rfl⟩ := List.cons.inj rest
        exact running finished
    | cons event more =>
        obtain ⟨_, rfl⟩ := List.cons.inj rest
        exact running (by simp [finished])

/-- The header has been read when its deadline expires: the handler of the deadline
runs behind the one that reads on, and closes the socket. -/
theorem deadline_of_finished_read :
    ∃ log state, Run (system {}) (fun _ _ => True) started log state ∧
      ∃ before after, log = before ++ .timedOut .readDeadline 3 :: after ∧
        ¬ ∃ early late, before = early ++ .armed .readDeadline 3 :: late ∧
          .finished .readDeadline ∉ late := by
  let labels : List Label :=
    [.handler, .completes (.read .success [0, 0, 0, 1]), .completes (.timer .readDeadline),
      .handler, .handler]
  let early : List Event :=
    [.armed .readyDeadline 0, .armed .heartbeatTimer 1, .armed .heartbeatDeadline 2]
  let late : List Event := [.finished .readDeadline, .armed .readDeadline 4]
  let after : List Event := [.signal (.errorOccurred .timedOut), .signal .closed]
  have computed : (Run.steps? (system {}) (fun _ _ => True) started labels).map
      (fun result => ((), result.2)) =
      some ((), (early ++ .armed .readDeadline 3 :: late) ++ .timedOut .readDeadline 3 :: after) := by
    decide +kernel
  obtain ⟨⟨state, log⟩, ran, same⟩ := Option.map_eq_some_iff.mp computed
  exact ⟨log, state, Run.of_steps? ran, _, after, (Prod.mk.inj same).2,
    not_watched (by decide) (by decide)⟩

end Peer

end UnixDomainStream
