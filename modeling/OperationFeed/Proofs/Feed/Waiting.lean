import OperationFeed.Proofs.Feed.Core
import OperationFeed.Proofs.Log
import OperationFeed.Proofs.Wait.Slot

/-!
# Waiting

What the steps of those who wait leave: of readers, for the next operation, and of others, for the
log to drain.

* `Feed.ReadCourse` lists what becomes of a read when it is made, and `Feed.read_course` says that
  nothing else does;
* `Feed.ReaderCourse` and `Feed.reader_course` do the same for a turn of a reader that waits. A
  reader whose notification was resolved by an operation looks again, and either finds something or
  joins the slot anew in the same turn.
-/

namespace OperationFeed

/-- What a wait for the log to drain results in, by the way in which it ended. -/
def WaitOutcome.result : WaitOutcome → FeedResult
  | .completed => .ok .done
  | .cancelled => .error .cancelled

/-! ### Reading -/

namespace Feed

/-- A read is served at once if it asks for nothing, or if there is something above its number. -/
def Serves (feed : Feed) (after : SequenceNumber) (max : Nat) : Prop :=
  max = 0 ∨ ∃ e ∈ feed.log.entries, after < e.number

instance (feed : Feed) (after : SequenceNumber) (max : Nat) : Decidable (feed.Serves after max) :=
  inferInstanceAs (Decidable (max = 0 ∨ ∃ e ∈ feed.log.entries, after < e.number))

/-- A read that waits asks for something, and nothing in the log lies above its number. -/
theorem not_serves {feed : Feed} {after : SequenceNumber} {max : Nat} :
    ¬ feed.Serves after max ↔ max ≠ 0 ∧ ∀ e ∈ feed.log.entries, e.number ≤ after := by
  simp only [Serves, not_or, not_exists, not_and, UInt64.not_lt, ne_eq]

/-- The test that a read is served by, on the batch that it would be served with. -/
theorem serves_iff {feed : Feed} {after : SequenceNumber} {max : Nat} :
    (!(feed.log.read after max).isEmpty || max == 0) = true ↔ feed.Serves after max := by
  rw [← Decidable.not_iff_not, not_serves, Bool.not_eq_true, Bool.or_eq_false_iff,
    Bool.not_eq_false', List.isEmpty_iff, Log.read_eq_nil, beq_eq_false_iff_ne]
  refine ⟨fun ⟨h_empty, h_max⟩ => ⟨h_max, h_empty.resolve_left h_max⟩, ?_⟩
  rintro ⟨h_max, h_none⟩
  exact ⟨.inr h_none, h_max⟩

/-- A try to read is served from the log, or joins the slot of those who wait. -/
theorem effect_tryRead (after : SequenceNumber) (max : Nat) (feed : Feed) :
    (tryRead after max).effect feed =
      if feed.isClosed then (.error .closed, feed)
      else if feed.Serves after max then (.ok (.ready (feed.log.read after max)), feed)
      else (.ok (.wait feed.arrivals.join.1), { feed with arrivals := feed.arrivals.join.2 }) := by
  cases h_closed : feed.isClosed
  · simp only [tryRead, Attempt.effect_bind, effect_requireOpen, h_closed, Bool.false_eq_true,
      if_false, Attempt.effect_get, Attempt.effect_ite, serves_iff]
    split <;> rfl
  · simp [tryRead, Attempt.effect_bind, h_closed]

/-- What becomes of a read when it is made, at a given time. -/
inductive ReadCourse (now : Nat) (after : SequenceNumber) (max : Nat) (timeout : Duration)
    (feed : Feed) : Except FeedError FeedLaunch → Feed → Prop
  -- The call is refused.
  | refused {e : FeedError} {feed' : Feed} (same : SameCore feed feed') :
      ReadCourse now after max timeout feed (.error e) feed'
  -- A fault strikes, and the result is its error.
  | struck {e : FeedError} {feed' : Feed} (same : SameCore feed feed')
      (strikes : (feed.counted .readSync).strike .readAsync = some e) :
      ReadCourse now after max timeout feed (.ok (.ready (.error e))) feed'
  -- There is something to read.
  | found {feed' : Feed} (same : SameCore feed feed') (isOpen : feed.isClosed = false)
      (serves : feed.Serves after max) :
      ReadCourse now after max timeout feed (.ok (.ready (.ok (.batch (feed.log.read after max)))))
        feed'
  -- There is nothing, and a reader waits.
  | waits {feed' : Feed} (same : SameCore feed feed') (isOpen : feed.isClosed = false)
      (serves : ¬ feed.Serves after max) :
      ReadCourse now after max timeout feed
        (.ok (.task (.read
          ⟨after, max, deadlineAfter now timeout, timeout, feed.arrivals.join.1⟩)))
        { feed' with arrivals := feed.arrivals.join.2 }

/-- A read comes through its two fault points, and is then served or waits. -/
theorem effect_read (now : Nat) (after : SequenceNumber) (max : Nat) (timeout : Duration)
    (feed : Feed) :
    (read now after max timeout).effect feed =
      if feed.isClosed then (.error .closed, feed)
      else match feed.strike .readSync with
        | some e => (.error e, feed.counted .readSync)
        | none =>
          let feed₂ := (feed.counted .readSync).counted .readAsync
          match (feed.counted .readSync).strike .readAsync with
          | some e => (.ok (.ready (.error e)), feed₂)
          | none =>
            if feed.Serves after max then
              (.ok (.ready (.ok (.batch (feed.log.read after max)))), feed₂)
            else
              (.ok (.task (.read
                ⟨after, max, deadlineAfter now timeout, timeout, feed.arrivals.join.1⟩)),
                { feed₂ with arrivals := feed.arrivals.join.2 }) := by
  -- the closed flag and the two faults are asked in this order, and end the call
  cases h_closed : feed.isClosed with
  | true => simp [read, Attempt.effect_bind, h_closed]
  | false =>
  cases h_sync : feed.strike .readSync with
  | some e => simp [read, Attempt.effect_bind, h_closed, h_sync]
  | none =>
  cases h_async : (feed.counted .readSync).strike .readAsync with
  | some e => simp [read, Attempt.effect_bind, h_closed, h_sync, h_async]
  | none =>
  have h_try := effect_tryRead after max ((feed.counted .readSync).counted .readAsync)
  have h_open : ((feed.counted .readSync).counted .readAsync).isClosed = false := h_closed
  rw [if_neg (Bool.eq_false_iff.mp h_open)] at h_try
  simp only [read, Attempt.effect_bind, effect_requireOpen, h_closed, Bool.false_eq_true,
    if_false, effect_failAt, h_sync, Option.elim, Attempt.effect_lift, effect_checkFault, h_async,
    h_try]
  -- counting the calls has changed nothing that a read looks at
  by_cases serves : feed.Serves after max
  · have serves₂ : ((feed.counted .readSync).counted .readAsync).Serves after max := serves
    rw [if_pos serves, if_pos serves₂]
    rfl
  · have serves₂ : ¬ ((feed.counted .readSync).counted .readAsync).Serves after max := serves
    rw [if_neg serves, if_neg serves₂]
    rfl

/-- Each read takes one of these courses when it is made. -/
theorem read_course (now : Nat) (after : SequenceNumber) (max : Nat) (timeout : Duration)
    (feed : Feed) :
    ReadCourse now after max timeout feed ((read now after max timeout).effect feed).1
      ((read now after max timeout).effect feed).2 := by
  -- both calls are counted, whatever comes next
  have same : SameCore feed ((feed.counted .readSync).counted .readAsync) :=
    (SameCore.counted feed .readSync).trans (.counted _ .readAsync)
  rw [effect_read]
  split
  · exact .refused (.refl feed)
  next h_closed =>
  have isOpen : feed.isClosed = false := Bool.not_eq_true _ ▸ h_closed
  cases h_sync : feed.strike .readSync with
  | some e => exact .refused (.counted feed .readSync)
  | none =>
  cases h_async : (feed.counted .readSync).strike .readAsync with
  | some e => exact .struck same h_async
  | none =>
  by_cases serves : feed.Serves after max
  · simp only [if_pos serves]
    exact .found same isOpen serves
  · simp only [if_neg serves]
    exact .waits same isOpen serves

/-! ### The turns of a reader -/

/-- What becomes of a waiting reader in its turn, at a given time. -/
inductive ReaderCourse (now : Nat) (reader : Reader) (feed : Feed) : FeedTurn → Feed → Prop
  -- Nothing has happened.
  | waits (pending : feed.arrivals.answer? reader.waiter = none)
      (early : reader.isOverdue now = false) :
      ReaderCourse now reader feed (.parked (.read reader)) feed
  -- Nothing has happened, and the time is over.
  | expired (pending : feed.arrivals.answer? reader.waiter = none)
      (late : reader.isOverdue now = true) :
      ReaderCourse now reader feed (.finished (.error (.timeout reader.timeout)))
        { feed with arrivals := (feed.arrivals.leave reader.waiter).releaseIfAbandoned.2 }
  -- The wait was given up.
  | cancelled (answered : feed.arrivals.answer? reader.waiter = some .cancelled) :
      ReaderCourse now reader feed (.finished (.error .cancelled)) feed
  -- There was an operation, and then the feed was closed.
  | closed (answered : feed.arrivals.answer? reader.waiter = some .completed)
      (isClosed : feed.isClosed = true) :
      ReaderCourse now reader feed (.finished (.error .cancelled)) feed
  -- There was an operation, and there is something to read.
  | found (answered : feed.arrivals.answer? reader.waiter = some .completed)
      (isOpen : feed.isClosed = false) (serves : feed.Serves reader.after reader.max) :
      ReaderCourse now reader feed
        (.finished (.ok (.batch (feed.log.read reader.after reader.max)))) feed
  -- There was an operation, but none for this reader, who waits for the next.
  | rejoined (answered : feed.arrivals.answer? reader.waiter = some .completed)
      (isOpen : feed.isClosed = false) (serves : ¬ feed.Serves reader.after reader.max)
      (early : reader.isOverdue now = false) :
      ReaderCourse now reader feed
        (.parked (.read { reader with waiter := feed.arrivals.join.1 }))
        { feed with arrivals := feed.arrivals.join.2 }
  -- There was an operation, but none for this reader, whose time is over.
  | rejoinedExpired (answered : feed.arrivals.answer? reader.waiter = some .completed)
      (isOpen : feed.isClosed = false) (serves : ¬ feed.Serves reader.after reader.max)
      (late : reader.isOverdue now = true) :
      ReaderCourse now reader feed (.finished (.error (.timeout reader.timeout)))
        { feed with
          arrivals := (feed.arrivals.join.2.leave feed.arrivals.join.1).releaseIfAbandoned.2 }

/-- A reader whose time is over leaves the slot; any other stays. -/
theorem effect_expireOrWait (now : Nat) (reader : Reader) (feed : Feed) :
    (expireOrWait now reader).effect feed =
      if reader.isOverdue now then
        (.finished (.error (.timeout reader.timeout)),
          { feed with arrivals := (feed.arrivals.leave reader.waiter).releaseIfAbandoned.2 })
      else (.parked (.read reader), feed) := by
  simp [expireOrWait]

/-- Each turn of a reader takes one of these courses. -/
theorem reader_course (now : Nat) (reader : Reader) (feed : Feed) :
    ReaderCourse now reader feed ((readerTurn now reader).effect feed).1
      ((readerTurn now reader).effect feed).2 := by
  rw [readerTurn, Act.effect_bind, Act.effect_get]
  cases h_answer : feed.arrivals.answer? reader.waiter with
  | none =>
    simp only [effect_expireOrWait]
    split
    · next late => exact .expired h_answer late
    · next early => exact .waits h_answer (Bool.not_eq_true _ ▸ early)
  | some outcome =>
  cases outcome with
  | cancelled => exact .cancelled h_answer
  | completed =>
  simp only [Act.effect_bind, Attempt.effect_tryOut, effect_tryRead]
  -- woken up: closed in the meantime, served, or back to waiting
  by_cases h_closed : feed.isClosed = true
  · rw [if_pos h_closed]
    exact .closed h_answer h_closed
  rw [if_neg h_closed]
  rw [Bool.not_eq_true] at h_closed
  by_cases serves : feed.Serves reader.after reader.max
  · rw [if_pos serves]
    exact .found h_answer h_closed serves
  -- the reader joins anew, and is asked at once whether its time is over
  rw [if_neg serves]
  simp only [effect_expireOrWait]
  split
  · next late => exact .rejoinedExpired h_answer h_closed serves late
  · next early => exact .rejoined h_answer h_closed serves (Bool.not_eq_true _ ▸ early)

/-! ### Waiting for the log to drain -/

/-- One who waits for the log to drain joins the slot of the others, or has what was waited for. -/
inductive DrainCourse (feed : Feed) : Except FeedError FeedLaunch → Feed → Prop
  | refused : DrainCourse feed (.error .closed) feed
  | drained : DrainCourse feed (.ok (.ready (.ok .done))) feed
  | waits : DrainCourse feed (.ok (.task (.awaitDrain feed.drained.join.1)))
      { feed with drained := feed.drained.join.2 }

/-- Who finds the log empty and nobody waiting need not wait. -/
theorem effect_awaitDrain (feed : Feed) :
    awaitDrain.effect feed =
      if feed.isClosed then (.error .closed, feed)
      else if !feed.drained.isPending && feed.log.isEmpty then (.ok (.ready (.ok .done)), feed)
      else (.ok (.task (.awaitDrain feed.drained.join.1)),
        { feed with drained := feed.drained.join.2 }) := by
  cases h_closed : feed.isClosed
  · simp only [awaitDrain, Attempt.effect_bind, effect_requireOpen, h_closed, Bool.false_eq_true,
      if_false, Attempt.effect_get, Attempt.effect_ite]
    split <;> rfl
  · simp [awaitDrain, Attempt.effect_bind, h_closed]

/-- A wait that is not over at once has a place in the slot. -/
theorem launch_of_awaitDrain {feed : Feed} {task : FeedTask}
    (h : (awaitDrain.effect feed).1 = .ok (.task task)) :
    task = .awaitDrain feed.drained.join.1 ∧
      (awaitDrain.effect feed).2 = { feed with drained := feed.drained.join.2 } := by
  rw [effect_awaitDrain] at h ⊢
  split at h
  · cases h
  · next isOpen =>
    split at h
    · cases h
    · next busy =>
      rw [if_neg isOpen, if_neg busy]
      exact ⟨(Launch.task.inj (Except.ok.inj h)).symm, rfl⟩

/-- Each wait for the log to drain takes one of these courses when it is made. -/
theorem awaitDrain_course (feed : Feed) :
    DrainCourse feed (awaitDrain.effect feed).1 (awaitDrain.effect feed).2 := by
  rw [effect_awaitDrain]
  split
  · exact .refused
  · split
    · exact .drained
    · exact .waits

/-- A turn of one who waits for the log to drain only looks at the notification. -/
theorem effect_awaitDrainTurn (waiter : Waiter) (feed : Feed) :
    (awaitDrainTurn waiter).effect feed =
      (match feed.drained.answer? waiter with
        | none => .parked (.awaitDrain waiter)
        | some outcome => .finished outcome.result, feed) := by
  rw [awaitDrainTurn, Act.effect_bind, Act.effect_get]
  cases feed.drained.answer? waiter with
  | none => rfl
  | some outcome => cases outcome <;> rfl

/-- Such a turn changes nothing. -/
@[simp] theorem awaitDrainTurn_state (waiter : Waiter) (feed : Feed) :
    ((awaitDrainTurn waiter).effect feed).2 = feed := by
  rw [effect_awaitDrainTurn]

end Feed

end OperationFeed
