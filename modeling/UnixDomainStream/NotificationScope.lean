import Mathlib.Data.Nat.Notation

/-!
# What an owner keeps on the dispatcher thread

`impl/notification_scope.hpp`, and the counters of the dispatcher's
`debounced_task` and `timer`, which recognise their latest function by number.
-/

namespace UnixDomainStream

structure NotificationScope where
  running : Bool := false
  generation : Nat := 0
  deriving DecidableEq, Repr

namespace NotificationScope

def start (scope : NotificationScope) : NotificationScope := { scope with running := true }

/-- The first half of `stop()`; `invalidate` is the second. -/
def halt (scope : NotificationScope) : NotificationScope := { scope with running := false }

def invalidate (scope : NotificationScope) : NotificationScope :=
  { scope with generation := scope.generation + 1 }

def capture (scope : NotificationScope) : Nat := scope.generation

def isCurrent (value : Nat) (scope : NotificationScope) : Bool :=
  scope.running && scope.generation == value

@[simp]
theorem isCurrent_iff {value : Nat} {scope : NotificationScope} :
    scope.isCurrent value = true ↔ scope.running = true ∧ scope.generation = value := by
  simp [isCurrent]

end NotificationScope

/-- `debounced_task`: a delayed function runs only while no later call or
cancellation has advanced the generation. -/
structure DebouncedTask where
  generation : Nat := 0
  deriving DecidableEq, Repr

/-- `debounce_in_dispatcher` and the job of `cancel()` both begin with this. -/
def DebouncedTask.advance (task : DebouncedTask) : DebouncedTask := ⟨task.generation + 1⟩

/-- The periodic `timer`; `function_` is set or null. -/
structure PeriodicTimer where
  currentFunctionId : Nat := 0
  function : Bool := false
  deriving DecidableEq, Repr

namespace PeriodicTimer

def started (timer : PeriodicTimer) : PeriodicTimer := ⟨timer.currentFunctionId + 1, true⟩

def stopped (timer : PeriodicTimer) : PeriodicTimer := ⟨timer.currentFunctionId + 1, false⟩

end PeriodicTimer

end UnixDomainStream
