/-!
# Wait slots

A *wait slot* holds at most one pending notification, and all who wait on it while it is pending
share that notification. Resolving the slot wakes all of them and empties it; who joins later waits
for the next notification.

The notifications of a slot are numbered: those resolved so far are its *past*, in order, and the
pending one has the next number. A waiter is the number of the notification it waits for, so its
answer is found in the past at that number, however many more have come since.
-/

namespace OperationFeed

/-- How a wait ended. -/
inductive WaitOutcome where
  -- What was waited for has happened.
  | completed
  -- The wait was given up.
  | cancelled
deriving DecidableEq

/-- One party's hold on a notification. -/
structure Waiter where
  generation : Nat
deriving DecidableEq

/-- At most one pending notification, after all the resolved ones. -/
structure WaitSlot where
  /-- How the earlier notifications were resolved, in order. -/
  past : List WaitOutcome
  /-- The number of waiters of the pending notification, if there is one. -/
  waiters : Option Nat
deriving DecidableEq

namespace WaitSlot

/-- A slot on which nobody has waited yet. -/
def empty : WaitSlot := ⟨[], none⟩

instance : EmptyCollection WaitSlot := ⟨empty⟩
instance : Inhabited WaitSlot := ⟨empty⟩

/-- Whether there is a pending notification. -/
def isPending (slot : WaitSlot) : Bool := slot.waiters.isSome

/-- The number of waiters of the pending notification. -/
def waiterCount (slot : WaitSlot) : Nat := slot.waiters.getD 0

/-- Wait for the pending notification, which is made if there is none. -/
def join (slot : WaitSlot) : Waiter × WaitSlot :=
  (⟨slot.past.length⟩, { slot with waiters := some (slot.waiterCount + 1) })

/-- Resolve the pending notification, and say whether there was one. -/
def resolve (slot : WaitSlot) (outcome : WaitOutcome) : Bool × WaitSlot :=
  if slot.isPending then (true, ⟨slot.past ++ [outcome], none⟩) else (false, slot)

/-- Tell all waiters that what they wait for has happened. -/
def complete (slot : WaitSlot) : Bool × WaitSlot := slot.resolve .completed

/-- Tell all waiters that the wait is given up. -/
def cancel (slot : WaitSlot) : Bool × WaitSlot := slot.resolve .cancelled

/-- Empty the slot if its notification is pending and nobody waits for it any more. -/
def releaseIfAbandoned (slot : WaitSlot) : Bool × WaitSlot :=
  if slot.waiters = some 0 then (true, { slot with waiters := none }) else (false, slot)

/-- What a waiter learns: nothing while its notification is pending. -/
def answer? (slot : WaitSlot) (w : Waiter) : Option WaitOutcome := slot.past[w.generation]?

/-- A waiter goes away. It was counted only if its notification is pending. -/
def leave (slot : WaitSlot) (w : Waiter) : WaitSlot :=
  if w.generation = slot.past.length then
    { slot with waiters := slot.waiters.map (· - 1) }
  else
    slot

end WaitSlot

end OperationFeed
