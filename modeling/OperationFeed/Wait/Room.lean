import OperationFeed.Wait.Slot

/-!
# Waiting rooms

A slot together with everybody who ever joined it. The slot may be taken away, or taken away and
replaced by a new one: who still waited on the old one finds the wait given up.
-/

namespace OperationFeed

/-- A slot and those who joined it. -/
structure WaitRoom where
  /-- The slot; one that has been taken away keeps only its past. -/
  slot : WaitSlot
  hasSlot : Bool
  /-- Who joined, in order, without those who went away or have their answer. -/
  waiters : List (Option Waiter)

namespace WaitRoom

/-- A new slot that nobody has joined. -/
def fresh : WaitRoom := ⟨∅, true, []⟩

/-- What a poll of a waiter finds. -/
inductive Poll where
  -- The waiter went away earlier, or had its answer.
  | gone
  -- No answer yet.
  | pending
  -- The answer, after which the waiter is gone.
  | answered (outcome : WaitOutcome)
deriving DecidableEq

/-- One more party joins; its place is the answer. -/
def join (room : WaitRoom) : Nat × WaitRoom :=
  let (waiter, slot) := room.slot.join
  (room.waiters.length, { room with slot, waiters := room.waiters ++ [some waiter] })

/-- Do something with the slot, if it is there. -/
def onSlot (room : WaitRoom) (f : WaitSlot → Bool × WaitSlot) : Option Bool × WaitRoom :=
  if room.hasSlot then
    let (answer, slot) := f room.slot
    (some answer, { room with slot })
  else
    (none, room)

/-- Take the slot away. A notification that is pending then will never come, and whoever waits for
it finds the wait cancelled. So a notification that is lost with its slot goes to the past as one
that was cancelled: no waiter can tell the two apart. -/
def dropSlot (room : WaitRoom) : WaitRoom :=
  { room with slot := room.slot.cancel.2, hasSlot := false }

/-- Take the slot away and put a new one in its place. -/
def replaceSlot (room : WaitRoom) : WaitRoom := { room.dropSlot with hasSlot := true }

/-- The waiter at a place goes away. -/
def leave (room : WaitRoom) (place : Nat) : WaitRoom :=
  match room.waiters[place]?.join with
  | none => room
  | some waiter =>
    { room with slot := room.slot.leave waiter, waiters := room.waiters.set place none }

/-- Ask the waiter at a place for its answer; with an answer, it goes away. -/
def poll (room : WaitRoom) (place : Nat) : Poll × WaitRoom :=
  match room.waiters[place]?.join with
  | none => (.gone, room)
  | some waiter =>
    match room.slot.answer? waiter with
    | none => (.pending, room)
    | some outcome => (.answered outcome, room.leave place)

end WaitRoom

end OperationFeed
