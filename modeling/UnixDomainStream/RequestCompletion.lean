import UnixDomainStream.RequestManager

/-!
# Requests complete exactly once

An arbitrary sequence of calls to a request manager.  A timeout callback is the
list of calls it makes in turn, so a timer handler re-enters the manager with
the rest of the sequence still to come.  A timer handler may fire with any id,
any error code, any callback and any number of times; this includes the handler
that was already queued when its timer was cancelled.
-/

namespace UnixDomainStream

open Library
open Protocol (Bytes)

namespace RequestCompletion

/-- A call to the manager. -/
inductive Operation (κ : Type) where
  | add (peerIdValue : Option Nat) (callback : κ) (timeoutCallback : Option (List (Operation κ)))
  | complete (id : Nat) (errorCode : ErrorCode) (data : Option Bytes)
  | completeFrom (peerIdValue id : Nat) (errorCode : ErrorCode) (data : Option Bytes)
  | completePeer (id : Nat) (errorCode : ErrorCode)
  | completeAll (errorCode : ErrorCode)
  | timer (id : Nat) (errorCode : ErrorCode) (timeoutCallback : Option (List (Operation κ)))

/-- The manager after a call, and the timeout callback called, with its id. -/
def Operation.run {κ : Type} (operation : Operation κ)
    (manager : RequestManager κ (List (Operation κ))) :
    RequestTurn κ (List (Operation κ)) × Option (Nat × List (Operation κ)) :=
  match operation with
  | .add peerIdValue callback timeoutCallback =>
      ({ manager := manager.add peerIdValue callback timeoutCallback }, none)
  | .complete id errorCode data => (manager.complete id errorCode data, none)
  | .completeFrom peerIdValue id errorCode data =>
      (manager.completeFrom peerIdValue id errorCode data, none)
  | .completePeer id errorCode => (manager.completePeer id errorCode, none)
  | .completeAll errorCode => (manager.completeAll errorCode, none)
  | .timer id errorCode timeoutCallback =>
      let (turn, callback) := manager.onTimer ⟨id, errorCode, timeoutCallback⟩
      (turn, callback.map (Prod.mk id))

/-- The request an operation registers. -/
def Operation.issue? {κ : Type} : Operation κ → Option (PendingRequest κ)
  | .add peerIdValue callback _ => some ⟨peerIdValue, callback⟩
  | _ => none

/-- The manager with the calls still to come and a record of what happened. -/
structure Session (κ : Type) where
  manager : RequestManager κ (List (Operation κ)) := {}
  agenda : List (Operation κ)
  history : List (Operation κ) := []
  /-- The ids returned by `add`. -/
  returned : List Nat := []
  /-- The callbacks enqueued. -/
  enqueued : List (Completion κ) := []
  /-- The ids whose timeout callback was called. -/
  timedOut : List Nat := []

namespace Session

variable {κ : Type}

/-- Make the next call.  The calls of a timeout callback come before the rest. -/
def step (session : Session κ) : Session κ :=
  match session.agenda with
  | [] => session
  | operation :: rest =>
      let (turn, callback) := operation.run session.manager
      { manager := turn.manager
        agenda := (callback.elim [] Prod.snd) ++ rest
        history := session.history ++ [operation]
        returned :=
          session.returned ++ operation.issue?.toList.map fun _ => session.manager.nextRequestId
        enqueued := session.enqueued ++ turn.completions
        timedOut := session.timedOut ++ callback.toList.map Prod.fst }

def start (operations : List (Operation κ)) : Session κ := { agenda := operations }

/-- The session after some number of calls. -/
def after (steps : Nat) (operations : List (Operation κ)) : Session κ :=
  step^[steps] (start operations)

end Session

/-! ## What an operation answers -/

/-- The error code and data for a callback, and whether a timeout callback was
called with it. -/
structure Answer where
  errorCode : ErrorCode
  data : Option Bytes
  timedOut : Bool

namespace Operation

variable {κ : Type}

/-- Whether an operation addresses a pending request. -/
def addresses (operation : Operation κ) (request : Nat × PendingRequest κ) : Bool :=
  match operation with
  | add _ _ _ => false
  | complete id _ _ => request.1 == id
  | completeFrom peerIdValue id _ _ =>
      request.1 == id && request.2.peerIdValue == some peerIdValue
  | completePeer id _ => request.2.peerIdValue == some id
  | completeAll _ => true
  | timer id errorCode _ => decide (errorCode = .success) && request.1 == id

/-- The answer an operation has for the requests it addresses. -/
def answer : Operation κ → Answer
  | add _ _ _ => ⟨.success, none, false⟩
  | complete _ errorCode data => ⟨errorCode, data, false⟩
  | completeFrom _ _ errorCode data => ⟨errorCode, data, false⟩
  | completePeer _ errorCode => ⟨errorCode, none, false⟩
  | completeAll errorCode => ⟨errorCode, none, false⟩
  | timer _ _ timeoutCallback => ⟨.timedOut, none, timeoutCallback.isSome⟩

/-- The request manager seen as a service that answers numbered requests. -/
def service : Service (Operation κ) (PendingRequest κ) Answer where
  issue? := issue?
  answer? operation request :=
    if operation.addresses request then some operation.answer else none

end Operation

open Operation (service)

variable {κ : Type}

/-- The completion of one answered request. -/
def completion (answered : (Nat × PendingRequest κ) × Answer) : Completion κ :=
  ⟨answered.1.1, answered.1.2.callback, answered.2.errorCode, answered.2.data⟩

theorem remove_answered (ledger : Ledger (PendingRequest κ)) (operation : Operation κ) :
    (ledger.remove fun request => (service.answer? operation request).isSome) =
      ledger.remove operation.addresses := by
  refine Ledger.remove_congr ?_
  intro request _
  cases addressed : operation.addresses request <;> simp [service, addressed]

theorem applyLedger_eq (ledger : Ledger (PendingRequest κ)) {operation : Operation κ}
    (settles : operation.issue? = none) :
    Book.applyLedger service ledger operation = ledger.remove operation.addresses := by
  rw [← remove_answered]
  simp [Book.applyLedger, service, settles]

theorem applyLedger_add (ledger : Ledger (PendingRequest κ)) (peerIdValue : Option Nat)
    (callback : κ) (timeoutCallback : Option (List (Operation κ))) :
    Book.applyLedger service ledger (.add peerIdValue callback timeoutCallback) =
      ledger.issue ⟨peerIdValue, callback⟩ := by
  have kept := remove_answered ledger (.add peerIdValue callback timeoutCallback)
  have all : ledger.remove (Operation.addresses (.add peerIdValue callback timeoutCallback)) =
      ledger := Ledger.remove_false ledger
  rw [all] at kept
  simp only [Book.applyLedger, kept]
  rfl

theorem applyAnswers_eq (ledger : Ledger (PendingRequest κ)) (operation : Operation κ) :
    Book.applyAnswers service ledger operation =
      (ledger.addressed operation.addresses).map fun request => (request, operation.answer) := by
  simp only [Book.applyAnswers, service, Ledger.addressed]
  induction ledger.entries with
  | nil => rfl
  | cons request rest ih =>
      cases addressed : operation.addresses request <;> simpa [addressed] using ih

/-- What a call does to the manager, for the calls that settle requests. -/
theorem run_settles {operation : Operation κ} (settles : operation.issue? = none)
    (manager : RequestManager κ (List (Operation κ))) :
    (operation.run manager).1 =
      manager.completeWhere operation.addresses operation.answer.errorCode
        operation.answer.data := by
  cases operation with
  | add => cases settles
  | complete => rfl
  | completeFrom => exact RequestManager.completeFrom_eq ..
  | completePeer => rfl
  | completeAll => rfl
  | timer => exact RequestManager.onTimer_eq ..

/-- The answers of an operation that count as timeouts: all of them or none. -/
theorem timedOut_answers (ledger : Ledger (PendingRequest κ)) (operation : Operation κ) :
    ((Book.applyAnswers service ledger operation).filter
        fun answered => answered.2.timedOut).map (·.1.1) =
      if operation.answer.timedOut then
        (ledger.addressed operation.addresses).map Prod.fst
      else [] := by
  rw [applyAnswers_eq, List.filter_map, List.map_map]
  cases timedOut : operation.answer.timedOut with
  | false => simp [Function.comp_def, timedOut]
  | true => simp [Function.comp_def, timedOut]

/-- A firing addresses its own id, if it was not cancelled. -/
theorem addressed_timer (ledger : Ledger (PendingRequest κ)) (id : Nat)
    (timeoutCallback : Option (List (Operation κ))) :
    ledger.addressed (Operation.timer id .success timeoutCallback).addresses =
      ledger.entries.filter fun request => request.1 == id :=
  List.filter_congr fun request _ => by simp [Operation.addresses]

/-- The ids of the timeout callbacks called are those of the answers that say so. -/
theorem run_timedOut (operation : Operation κ)
    (manager : RequestManager κ (List (Operation κ))) :
    (operation.run manager).2.toList.map Prod.fst =
      ((Book.applyAnswers service manager.pendingRequests operation).filter
        fun answered => answered.2.timedOut).map (·.1.1) := by
  rw [timedOut_answers]
  cases operation with
  | timer id errorCode timeoutCallback =>
      by_cases expired : errorCode = .success
      · cases found : manager.pendingRequests.find? id with
        | none =>
            have absent := Ledger.filter_of_absent (Ledger.find?_eq_none.mp found)
            simp only [expired, addressed_timer, absent]
            simp [Operation.run, RequestManager.onTimer, found]
        | some request =>
            have only := Ledger.filter_of_mem (Ledger.find?_eq_some.mp found)
            simp only [expired, addressed_timer, only]
            cases timeoutCallback <;>
              simp [Operation.run, RequestManager.onTimer, found, Operation.answer]
      · simp [Operation.run, RequestManager.onTimer, Ledger.addressed, Operation.addresses,
          expired]
  | _ => simp [Operation.run, Operation.answer]

/-- The record of a session agrees with the book of its history. -/
structure Accounted (session : Session κ) (book : Book (PendingRequest κ) Answer) : Prop where
  pending : session.manager.pendingRequests = book.ledger
  returned : session.returned = List.range' 1 book.ledger.issued
  enqueued : session.enqueued = book.answers.map completion
  timedOut :
    session.timedOut = (book.answers.filter fun answered => answered.2.timedOut).map (·.1.1)

theorem accounted_start (operations : List (Operation κ)) :
    Accounted (Session.start operations) Book.empty := by
  constructor <;> rfl

theorem accounted_step {session : Session κ} {book : Book (PendingRequest κ) Answer}
    {operation : Operation κ} {rest : List (Operation κ)}
    (agenda : session.agenda = operation :: rest) (accounted : Accounted session book) :
    Accounted session.step (book.apply service operation) := by
  obtain ⟨pending, returned, enqueued, timedOut⟩ := accounted
  have callbacks := run_timedOut operation session.manager
  cases settles : operation.issue? with
  | none =>
      have turned := run_settles settles session.manager
      constructor
      · simp [Session.step, agenda, turned, RequestManager.completeWhere, Book.apply,
          applyLedger_eq _ settles, pending]
      · simp [Session.step, agenda, settles, returned, Book.issued_apply, service]
      · simp [Session.step, agenda, turned, RequestManager.completeWhere, Book.apply, enqueued,
          applyAnswers_eq, pending, completion]
      · simp [Session.step, agenda, callbacks, timedOut, Book.apply, pending]
  | some request =>
      cases operation with
      | add peerIdValue callback timeoutCallback =>
          have unaddressed : Book.applyAnswers service book.ledger
              (.add peerIdValue callback timeoutCallback) = [] := by
            rw [applyAnswers_eq]
            simp [Ledger.addressed, Operation.addresses]
          constructor
          · simp [Session.step, agenda, Operation.run, RequestManager.add, Book.apply,
              applyLedger_add, pending]
          · simp [Session.step, agenda, Operation.issue?, RequestManager.nextRequestId, returned,
              pending, Book.issued_apply, service, List.range'_concat, Nat.add_comm]
          · simp [Session.step, agenda, Operation.run, Book.apply, unaddressed, enqueued]
          · simp [Session.step, agenda, Operation.run, Book.apply, unaddressed, timedOut]
      | _ => cases settles

/-- Every reached record agrees with the book of the calls made so far. -/
theorem accounted_after (steps : Nat) (operations : List (Operation κ)) :
    Accounted (Session.after steps operations)
      (Book.empty.run service (Session.after steps operations).history) := by
  induction steps with
  | zero => exact accounted_start operations
  | succ steps ih =>
      have stepped : Session.after (steps + 1) operations =
          (Session.after steps operations).step := Function.iterate_succ_apply' ..
      rw [stepped]
      cases agenda : (Session.after steps operations).agenda with
      | nil => simpa [Session.step, agenda] using ih
      | cons operation rest =>
          have recorded : (Session.after steps operations).step.history =
              (Session.after steps operations).history ++ [operation] := by
            simp [Session.step, agenda]
          rw [recorded, Book.run_append]
          exact accounted_step agenda ih

/-! ## Exactly once -/

namespace Session

/-- The callbacks enqueued for one id. -/
def completions (id : Nat) (session : Session κ) : List (Completion κ) :=
  session.enqueued.filter fun completion => completion.id == id

/-- `pending_requests_.contains(id)` -/
def pending (id : Nat) (session : Session κ) : Bool :=
  (session.manager.pendingRequests.find? id).isSome

end Session

/-- A request registered after `before` and first addressed by `operation`. -/
structure AddressedBy (session : Session κ) (id : Nat) (request : PendingRequest κ)
    (operation : Operation κ) : Prop where
  split : ∃ before timeoutCallback between after,
    session.history =
        before ++ .add request.peerIdValue request.callback timeoutCallback ::
          (between ++ operation :: after) ∧
      id = (before.filterMap Operation.issue?).length + 1 ∧
      ∀ earlier ∈ between, earlier.addresses (id, request) = false
  addressed : operation.addresses (id, request) = true

/-- The first answer comes from the first operation that addresses the request. -/
theorem firstAnswer_eq_some {request : Nat × PendingRequest κ}
    {operations : List (Operation κ)} {answer : Answer}
    (first : Book.firstAnswer service request operations = some answer) :
    ∃ between operation after, operations = between ++ operation :: after ∧
      (∀ earlier ∈ between, earlier.addresses request = false) ∧
      operation.addresses request = true ∧ operation.answer = answer := by
  obtain ⟨between, operation, after, split, answered, unaddressed⟩ :=
    List.findSome?_eq_some_iff.mp first
  refine ⟨between, operation, after, split, ?_, ?_⟩
  · intro earlier member
    simpa [service] using unaddressed earlier member
  · cases addressed : operation.addresses request with
    | false => simp [service, addressed] at answered
    | true => simpa [service, addressed] using answered

namespace Accounted

theorem completions_eq {session : Session κ} {book : Book (PendingRequest κ) Answer}
    (accounted : Accounted session book) (id : Nat) :
    session.completions id = (book.answersOf id).map completion := by
  rw [Session.completions, accounted.enqueued, List.filter_map]
  rfl

theorem count_timedOut {session : Session κ} {book : Book (PendingRequest κ) Answer}
    (accounted : Accounted session book) (id : Nat) :
    session.timedOut.count id =
      (book.answersOf id).countP fun answered => answered.2.timedOut := by
  rw [accounted.timedOut, Book.answersOf, List.count, List.countP_map, List.countP_filter,
    List.countP_filter]
  exact List.countP_congr fun answered _ => by simp [and_comm]

/-- The record under one issued id: it is pending and unanswered, or it has the
one answer of the operation that first addressed it. -/
theorem issued_cases {session : Session κ}
    (accounted : Accounted session (Book.empty.run service session.history)) {id : Nat}
    (returned : id ∈ session.returned) :
    (session.pending id = true ∧ session.completions id = [] ∧ session.timedOut.count id = 0) ∨
      ∃ request operation, AddressedBy session id request operation ∧
        session.pending id = false ∧
        session.completions id = [completion ((id, request), operation.answer)] ∧
        session.timedOut.count id = if operation.answer.timedOut then 1 else 0 := by
  have listed := accounted.returned
  rw [Book.issued_run] at listed
  rw [listed, List.mem_range'_1] at returned
  have issued : id ≤ (session.history.filterMap service.issue?).length := by
    have bound := returned.2
    simp only [Book.empty, Ledger.empty] at bound
    omega
  obtain ⟨before, issuer, request, after, split, issues, counted⟩ :=
    Book.exists_issue service returned.1 issued
  have settled := Book.run_issued service before after issues
  rw [← split, ← counted] at settled
  rw [Session.pending, accounted.pending, accounted.completions_eq, accounted.count_timedOut,
    settled.1, settled.2]
  cases first : Book.firstAnswer service (id, request) after with
  | none =>
      left
      simp
  | some answer =>
      right
      obtain ⟨between, operation, rest, rfl, unaddressed, addressed, rfl⟩ :=
        firstAnswer_eq_some first
      cases issuer with
      | add peerIdValue callback timeoutCallback =>
          cases issues
          refine ⟨_, operation, ⟨⟨before, timeoutCallback, between, rest, split, counted,
            unaddressed⟩, addressed⟩, ?_⟩
          simp
      | _ => cases issues

/-- Answers are given under issued ids only. -/
theorem returned_of_answered {session : Session κ} {book : Book (PendingRequest κ) Answer}
    (accounted : Accounted session book) {answered : (Nat × PendingRequest κ) × Answer}
    (given : answered ∈ book.answers) : answered.1.1 ∈ session.returned := by
  have positive := book.positive answered given
  have bound := book.answered answered given
  rw [accounted.returned, List.mem_range'_1]
  omega

end Accounted

/-- Only a timer firing with a timeout callback counts as a timeout. -/
theorem timer_of_timedOut {operation : Operation κ} {request : Nat × PendingRequest κ}
    (addressed : operation.addresses request = true)
    (timedOut : operation.answer.timedOut = true) :
    ∃ timeoutCallback, operation = .timer request.1 .success (some timeoutCallback) := by
  cases operation with
  | timer id errorCode timeoutCallback =>
      obtain ⟨operations, rfl⟩ := Option.isSome_iff_exists.mp timedOut
      simp only [Operation.addresses, Bool.and_eq_true, decide_eq_true_eq, beq_iff_eq]
        at addressed
      exact ⟨operations, by rw [addressed.1, addressed.2]⟩
  | _ => cases timedOut

/-- Exactly-once completion.  The ids are distinct; an issued id is pending and
unanswered or has one callback enqueued; the callback gets what the operation
that first addressed the request while it was pending had to give; and the
timeout callback is called at most once, only by the firing that completed the
request. -/
theorem completes_exactly_once (operations : List (Operation κ)) (steps : Nat)
    (few : (Session.after steps operations).returned.length < 2 ^ 64) :
    let session := Session.after steps operations
    (session.returned.map UInt64.ofNat).Nodup ∧
      (∀ id ∈ session.returned,
        (session.pending id = true ∧ session.completions id = []) ∨
          (session.pending id = false ∧ (session.completions id).length = 1)) ∧
      (∀ completed ∈ session.enqueued, completed.id ∈ session.returned ∧
        ∃ request operation, AddressedBy session completed.id request operation ∧
          completed.callback = request.callback ∧
          completed.errorCode = operation.answer.errorCode ∧
          completed.data = operation.answer.data) ∧
      ∀ id, session.timedOut.count id ≤ 1 ∧
        (id ∈ session.timedOut →
          ∃ request timeoutCallback,
            AddressedBy session id request (.timer id .success (some timeoutCallback))) := by
  have accounted := accounted_after steps operations
  generalize Session.after steps operations = session at few accounted
  refine ⟨?_, ?_, ?_, ?_⟩
  · rw [accounted.returned, List.length_range'] at few
    rw [accounted.returned]
    refine List.Nodup.map_on ?_ (List.nodup_range' ..)
    intro left leftListed right rightListed same
    rw [List.mem_range'_1] at leftListed rightListed
    have words := congrArg UInt64.toNat same
    have fits : ∀ id, id < 1 + (Book.empty.run service session.history).ledger.issued → id < UInt64.size := by
      intro id bound
      exact Nat.lt_of_lt_of_le bound (by simp only [UInt64.size]; omega)
    rwa [UInt64.toNat_ofNat_of_lt' (fits left leftListed.2),
      UInt64.toNat_ofNat_of_lt' (fits right rightListed.2)] at words
  · intro id returned
    rcases accounted.issued_cases returned with ⟨pending, none, _⟩ | settled
    · exact Or.inl ⟨pending, none⟩
    · obtain ⟨request, operation, _, absent, completed, _⟩ := settled
      exact Or.inr ⟨absent, by rw [completed]; rfl⟩
  · intro completed enqueued
    have listed : completed ∈ session.completions completed.id :=
      List.mem_filter.mpr ⟨enqueued, by simp⟩
    have answered := enqueued
    rw [accounted.enqueued] at answered
    obtain ⟨source, given, rfl⟩ := List.mem_map.mp answered
    have returned := accounted.returned_of_answered given
    refine ⟨returned, ?_⟩
    rcases accounted.issued_cases returned with ⟨_, none, _⟩ | settled
    · rw [completion, none] at listed
      cases listed
    · obtain ⟨request, operation, addressed, _, only, _⟩ := settled
      rw [completion, only, List.mem_singleton, ← completion] at listed
      refine ⟨request, operation, addressed, ?_⟩
      rw [listed]
      exact ⟨rfl, rfl, rfl⟩
  · intro id
    by_cases called : id ∈ session.timedOut
    · have returned : id ∈ session.returned := by
        rw [accounted.timedOut] at called
        obtain ⟨answered, given, rfl⟩ := List.mem_map.mp called
        exact accounted.returned_of_answered (List.mem_of_mem_filter given)
      have positive := List.count_pos_iff.mpr called
      rcases accounted.issued_cases returned with ⟨_, _, never⟩ | settled
      · omega
      · obtain ⟨request, operation, addressed, _, _, counted⟩ := settled
        cases timedOut : operation.answer.timedOut with
        | false =>
            rw [timedOut] at counted
            simp only [Bool.false_eq_true, if_false] at counted
            omega
        | true =>
            rw [timedOut] at counted
            obtain ⟨timeoutCallback, rfl⟩ := timer_of_timedOut addressed.addressed timedOut
            exact ⟨Nat.le_of_eq counted, fun _ => ⟨request, timeoutCallback, addressed⟩⟩
    · rw [List.count_eq_zero_of_not_mem called]
      exact ⟨Nat.zero_le 1, fun listed => absurd listed called⟩

/-- A timeout callback that closes the peer fails the peer's other request, and
the response that was already on its way addresses nothing. -/
theorem completes_exactly_once_timeout :
    let operations : List (Operation Nat) :=
      [.add (some 1) 10 none, .add (some 1) 11 none,
        .timer 1 .success (some [.completePeer 1 .operationAborted]),
        .completeFrom 1 2 .success (some [])]
    let session := Session.after 5 operations
    session.enqueued = [⟨1, 10, .timedOut, none⟩, ⟨2, 11, .operationAborted, none⟩] ∧
      ∀ id ∈ session.returned,
        (session.pending id = true ∧ session.completions id = []) ∨
          (session.pending id = false ∧ (session.completions id).length = 1) :=
  ⟨by decide, (completes_exactly_once _ 5 (by decide)).2.1⟩

end RequestCompletion

end UnixDomainStream
