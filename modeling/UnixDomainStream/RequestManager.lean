import Mathlib.Logic.Function.Iterate
import UnixDomainStream.Library.Ledger
import UnixDomainStream.Options
import UnixDomainStream.Protocol

/-!
# Pending requests

`impl/request_manager.hpp`.  The table is a ledger of the requests still open;
`next_request_id_` is its counter.  A request has one timer wait, whose handler
carries the request id and the timeout callback.  Completing a request takes it
out of the table, cancels its timer and enqueues its callback.
-/

namespace UnixDomainStream

open Library
open Protocol (Bytes)

/-- `pending_request`; its timer is the wait recorded under the same id. -/
structure PendingRequest (κ : Type) where
  peerIdValue : Option Nat
  callback : κ
  deriving DecidableEq, Repr

/-- A ready handler of a request timer, with what it captured. -/
structure RequestTimer (τ : Type) where
  id : Nat
  errorCode : ErrorCode
  timeoutCallback : Option τ
  deriving DecidableEq, Repr

/-- A callback enqueued to the dispatcher, with the id it was registered under. -/
structure Completion (κ : Type) where
  id : Nat
  callback : κ
  errorCode : ErrorCode
  data : Option Bytes
  deriving DecidableEq, Repr

structure RequestManager (κ τ : Type) where
  pendingRequests : Ledger (PendingRequest κ) := .empty
  /-- The timers whose waits are outstanding. -/
  waits : List (Nat × Option τ) := []

/-- The manager after a call, with the cancelled timers' handlers it queued and
the callbacks it enqueued. -/
structure RequestTurn (κ τ : Type) where
  manager : RequestManager κ τ
  posted : List (RequestTimer τ) := []
  completions : List (Completion κ) := []

namespace RequestManager

variable {κ τ : Type}

/-- The id `add` returns next. -/
def nextRequestId (manager : RequestManager κ τ) : Nat := manager.pendingRequests.issued + 1

def add (peerIdValue : Option Nat) (callback : κ) (timeoutCallback : Option τ)
    (manager : RequestManager κ τ) : RequestManager κ τ where
  pendingRequests := manager.pendingRequests.issue ⟨peerIdValue, callback⟩
  waits := manager.waits ++ [(manager.nextRequestId, timeoutCallback)]

/-- Extract the addressed requests and `complete_request` each of them.  The source walks a
`std::unordered_map`, whose order is unspecified, and here it is the order of issue: what is
said of several requests completed at once holds of each, or up to permutation. -/
def completeWhere (address : Nat × PendingRequest κ → Bool) (errorCode : ErrorCode)
    (data : Option Bytes) (manager : RequestManager κ τ) : RequestTurn κ τ :=
  let requests := manager.pendingRequests.addressed address
  let cancelled (wait : Nat × Option τ) := requests.any fun request => request.1 == wait.1
  { manager :=
      { pendingRequests := manager.pendingRequests.remove address
        waits := manager.waits.filter fun wait => !cancelled wait }
    posted :=
      (manager.waits.filter cancelled).map fun wait => ⟨wait.1, .operationAborted, wait.2⟩
    completions :=
      requests.map fun request => ⟨request.1, request.2.callback, errorCode, data⟩ }

def complete (id : Nat) (errorCode : ErrorCode) (data : Option Bytes)
    (manager : RequestManager κ τ) : RequestTurn κ τ :=
  manager.completeWhere (fun request => request.1 == id) errorCode data

/-- `complete` with a peer id, which leaves another peer's request alone. -/
def completeFrom (peerIdValue id : Nat) (errorCode : ErrorCode) (data : Option Bytes)
    (manager : RequestManager κ τ) : RequestTurn κ τ :=
  match manager.pendingRequests.find? id with
  | none => { manager }
  | some request =>
      if request.peerIdValue ≠ some peerIdValue then { manager }
      else manager.complete id errorCode data

def completePeer (id : Nat) (errorCode : ErrorCode) (manager : RequestManager κ τ) :
    RequestTurn κ τ :=
  manager.completeWhere (fun request => request.2.peerIdValue == some id) errorCode none

def completeAll (errorCode : ErrorCode) (manager : RequestManager κ τ) : RequestTurn κ τ :=
  manager.completeWhere (fun _ => true) errorCode none

/-- The handler of a request timer.  The second component is the timeout
callback it goes on to call. -/
def onTimer (timer : RequestTimer τ) (manager : RequestManager κ τ) :
    RequestTurn κ τ × Option τ :=
  if timer.errorCode = .success ∧ (manager.pendingRequests.find? timer.id).isSome then
    (manager.complete timer.id .timedOut none, timer.timeoutCallback)
  else ({ manager }, none)

/-- A timer expires, and its handler becomes ready to run. -/
def expire? (id : Nat) (manager : RequestManager κ τ) :
    Option (RequestManager κ τ × RequestTimer τ) :=
  (manager.waits.find? fun wait => wait.1 == id).map fun wait =>
    ({ manager with waits := manager.waits.filter fun other => !(other.1 == id) },
      ⟨wait.1, .success, wait.2⟩)

/-! ## What a call completes -/

/-- Only the addressed requests that are open matter. -/
theorem completeWhere_congr {left right : Nat × PendingRequest κ → Bool}
    {manager : RequestManager κ τ}
    (same : ∀ request ∈ manager.pendingRequests.entries, left request = right request)
    (errorCode : ErrorCode) (data : Option Bytes) :
    manager.completeWhere left errorCode data = manager.completeWhere right errorCode data := by
  have addressed : manager.pendingRequests.addressed left =
      manager.pendingRequests.addressed right := List.filter_congr same
  have removed : manager.pendingRequests.remove left =
      manager.pendingRequests.remove right := Ledger.remove_congr same
  simp only [completeWhere, addressed, removed]

/-- A call that addresses no open request does nothing. -/
theorem completeWhere_none {address : Nat × PendingRequest κ → Bool}
    {manager : RequestManager κ τ}
    (absent : ∀ request ∈ manager.pendingRequests.entries, address request = false)
    (errorCode : ErrorCode) (data : Option Bytes) :
    manager.completeWhere address errorCode data = { manager } := by
  rw [completeWhere_congr absent]
  simp [completeWhere, Ledger.addressed, Ledger.remove_false]

/-- What two calls in a row leave, and what the second of them completes. -/
theorem completeWhere_completeWhere (first second : Nat × PendingRequest κ → Bool)
    (errorCode errorCode' : ErrorCode) (data data' : Option Bytes)
    (manager : RequestManager κ τ) :
    let turn := (manager.completeWhere first errorCode data).manager.completeWhere second
      errorCode' data'
    turn.manager.pendingRequests.entries = manager.pendingRequests.entries.filter
        (fun request => !(first request || second request)) ∧
      turn.manager.waits = manager.waits.filter (fun wait =>
        !manager.pendingRequests.entries.any fun request =>
          (first request || second request) && request.1 == wait.1) ∧
      turn.completions = (manager.pendingRequests.entries.filter fun request =>
        second request && !first request).map fun request =>
          ⟨request.1, request.2.callback, errorCode', data'⟩ := by
  have left : (manager.completeWhere first errorCode data).manager.pendingRequests.entries =
      manager.pendingRequests.entries.filter fun request => !first request := rfl
  refine ⟨?_, ?_, ?_⟩
  · refine (List.filter_filter ..).trans (List.filter_congr fun request _ => ?_)
    rw [Bool.not_or, Bool.and_comm]
  · refine (List.filter_filter ..).trans (List.filter_congr fun wait _ => ?_)
    rw [← Bool.not_or]
    congr 1
    rw [Bool.eq_iff_iff]
    simp only [Ledger.addressed, left, List.any_filter, Bool.or_eq_true, List.any_eq_true,
      Bool.and_eq_true, Bool.not_eq_true']
    constructor
    · rintro (⟨request, pending, spared, addressed, same⟩ | ⟨request, pending, addressed, same⟩)
      · exact ⟨request, pending, .inr addressed, same⟩
      · exact ⟨request, pending, .inl addressed, same⟩
    · rintro ⟨request, pending, addressed, same⟩
      cases earlier : first request with
      | true => exact .inr ⟨request, pending, earlier, same⟩
      | false =>
          have later : second request = true := by simpa [earlier] using addressed
          exact .inl ⟨request, pending, earlier, later, same⟩
  · refine congrArg (List.map _) ?_
    exact List.filter_filter ..

theorem completeFrom_eq (peerIdValue id : Nat) (errorCode : ErrorCode) (data : Option Bytes)
    (manager : RequestManager κ τ) :
    manager.completeFrom peerIdValue id errorCode data =
      manager.completeWhere
        (fun request => request.1 == id && request.2.peerIdValue == some peerIdValue)
        errorCode data := by
  cases found : manager.pendingRequests.find? id with
  | none =>
      rw [Ledger.find?_eq_none] at found
      simp only [completeFrom, Ledger.find?_eq_none.mpr found]
      refine (completeWhere_none ?_ _ _).symm
      intro request member
      have other : request.1 ≠ id := by
        rintro rfl
        exact found request.2 member
      simp [other]
  | some request =>
      have member := Ledger.find?_eq_some.mp found
      simp only [completeFrom, found]
      split
      case isTrue other =>
        refine (completeWhere_none ?_ _ _).symm
        intro listed within
        by_cases same : listed.1 = id
        · subst same
          have value := Ledger.eq_of_mem within member
          simp [value, other]
        · simp [same]
      case isFalse own =>
        refine completeWhere_congr ?_ _ _
        intro listed within
        by_cases same : listed.1 = id
        · subst same
          have value := Ledger.eq_of_mem within member
          simp only [ne_eq, Decidable.not_not] at own
          simp [value, own]
        · simp [same]

theorem onTimer_eq (timer : RequestTimer τ) (manager : RequestManager κ τ) :
    (manager.onTimer timer).1 =
      manager.completeWhere
        (fun request => decide (timer.errorCode = .success) && request.1 == timer.id)
        .timedOut none := by
  by_cases expired : timer.errorCode = .success
  · cases found : manager.pendingRequests.find? timer.id with
    | none =>
        rw [Ledger.find?_eq_none] at found
        simp only [onTimer, Ledger.find?_eq_none.mpr found, Option.isSome_none,
          Bool.false_eq_true, and_false, if_false]
        refine (completeWhere_none ?_ _ _).symm
        intro request member
        have other : request.1 ≠ timer.id := by
          intro same
          rw [← same] at found
          exact found request.2 member
        simp [other]
    | some request => simp [onTimer, found, expired, complete]
  · simp only [onTimer, expired, false_and, if_false]
    refine (completeWhere_none ?_ _ _).symm
    simp

/-- An expired timer's wait was outstanding, and the requests stay pending. -/
theorem expire?_eq_some {id : Nat} {manager after : RequestManager κ τ} {timer : RequestTimer τ}
    (expires : manager.expire? id = some (after, timer)) :
    after.pendingRequests = manager.pendingRequests ∧
      (∀ wait ∈ after.waits, wait ∈ manager.waits) ∧
      (timer.id, timer.timeoutCallback) ∈ manager.waits := by
  obtain ⟨wait, found, same⟩ := Option.map_eq_some_iff.mp expires
  cases same
  exact ⟨rfl, fun other member => (List.mem_filter.mp member).1,
    List.mem_of_find?_eq_some found⟩

/-- The timeout callback is called only if the handler completed the request. -/
theorem onTimer_called {timer : RequestTimer τ} {manager : RequestManager κ τ} {callback : τ}
    (called : (manager.onTimer timer).2 = some callback) :
    timer.errorCode = .success ∧ timer.timeoutCallback = some callback ∧
      ∃ request, (timer.id, request) ∈ manager.pendingRequests.entries := by
  unfold onTimer at called
  split at called
  case isTrue fires =>
    obtain ⟨request, found⟩ := Option.isSome_iff_exists.mp fires.2
    exact ⟨fires.1, called, request, Ledger.find?_eq_some.mp found⟩
  case isFalse => cases called

end RequestManager

end UnixDomainStream
