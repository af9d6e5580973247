import OperationFeed.Feed.Task

/-!
# Reading operations

A read gives the first operations after a number. If there are none, it waits for the next add and
tries again, until its deadline. A reader that was told of an add and finds nothing for itself waits
for the next one; its deadline stays where it was.
-/

namespace OperationFeed

/-- Clock readings are below this many seconds, `2 ^ 63`. -/
def clockLimit : Nat := 9223372036854775808

/-- The millisecond at which a span of time, begun at a given millisecond, is over. There is none
for a span that leads past all clock readings. -/
def deadlineAfter (now : Nat) (span : Duration) : Option Nat :=
  if now / 1000 + span.wholeSeconds < clockLimit then
    some (now + span.ceilMilliseconds)
  else
    none

/-- Whether a reader's time is over. -/
def Reader.isOverdue (now : Nat) (reader : Reader) : Bool := reader.deadline.any (· ≤ now)

/-- What an attempt to read at once finds. -/
inductive ReadAttempt where
  -- Operations, or none because none were asked for.
  | ready (operations : List Operation)
  -- Nothing yet: a place among those who wait.
  | wait (waiter : Waiter)

namespace Feed

/-- Read what is there, or join those who wait for an operation. -/
def tryRead (after : SequenceNumber) (max : Nat) : Attempt Feed ReadAttempt := do
  requireOpen
  let feed ← get
  let operations := feed.log.read after max
  if !operations.isEmpty || max == 0 then
    return .ready operations
  else
    let (waiter, arrivals) := feed.arrivals.join
    set { feed with arrivals }
    return .wait waiter

/-- Read up to `max` operations after a number, and wait for them if there are none. -/
def read (now : Nat) (after : SequenceNumber) (max : Nat) (timeout : Duration) :
    Attempt Feed FeedLaunch := do
  requireOpen
  failAt .readSync
  match ← checkFault .readAsync with
  | some error => return .ready (.error error)
  | none =>
    match ← tryRead after max with
    | .ready operations => return .ready (.ok (.batch operations))
    | .wait waiter =>
      tell (.trace "no operations yet, waiting for add"
        [("after", .number after.toNat), ("max_count", .number max)])
      return .task (.read ⟨after, max, deadlineAfter now timeout, timeout, waiter⟩)

/-! ### The turns of a waiting reader -/

/-- A reader whose notification is pending gives up if its time is over: it goes away, and the slot
is emptied if it was the last. Otherwise it goes on waiting. -/
def expireOrWait (now : Nat) (reader : Reader) : Act Feed FeedTurn := do
  if reader.isOverdue now then
    let released ← modifyGet fun feed =>
      let (released, arrivals) := (feed.arrivals.leave reader.waiter).releaseIfAbandoned
      (released, { feed with arrivals })
    tell (.debug "read timed out"
      [("after", .number reader.after.toNat), ("timeout", .text reader.timeout.text),
        ("released", .flag released)])
    return .finished (.error (.timeout reader.timeout))
  else
    return .parked (.read reader)

/-- A turn of a waiting reader. -/
def readerTurn (now : Nat) (reader : Reader) : Act Feed FeedTurn := do
  match (← get).arrivals.answer? reader.waiter with
  | none => expireOrWait now reader
  | some .cancelled => return .finished (.error .cancelled)
  | some .completed =>
    match ← (tryRead reader.after reader.max).tryOut with
    | .ok (.ready operations) => return .finished (.ok (.batch operations))
    | .ok (.wait waiter) => expireOrWait now { reader with waiter }
    -- only a closed feed refuses, and it would have cancelled the reader
    | .error _ => return .finished (.error .cancelled)

end Feed

end OperationFeed
