import OperationFeed.Executor.Machine

/-!
# Timed work

The simplest task: it sleeps for a while, if it is told to, and then has the result it was made
with. The sleep is measured from the task's first turn.
-/

namespace OperationFeed

/-- A result that may be slept for. -/
structure Timer (α : Type) where
  /-- How long to sleep, in milliseconds. -/
  delay : Option Nat
  /-- When the sleep ends, once it has begun. -/
  wakeAt : Option Nat
  result : Except FeedError α

namespace Timer

variable {α : Type}

/-- A result after a sleep. -/
def after (delay : Option Nat) (result : Except FeedError α) : Timer α := ⟨delay, none, result⟩

/-- The end of the sleep, which begins now unless it has begun; without a sleep, now. -/
def wakeTime (t : Timer α) (now : Nat) : Nat :=
  t.wakeAt.getD (now + t.delay.getD 0)

instance : Work Unit (Timer α) (Except FeedError α) where
  turn now t :=
    if t.wakeTime now ≤ now then
      return .finished t.result
    else
      return .parked { t with wakeAt := some (t.wakeTime now) }
  isReady _ now t := t.wakeTime now ≤ now
  deadline? t := t.wakeAt
  abandon _ := return
  cancelled := .error .cancelled

end Timer

/-- Timed work on an executor of its own. -/
abbrev TimerMachine (α : Type) : Type := Machine Unit (Timer α) (Except FeedError α)

end OperationFeed
