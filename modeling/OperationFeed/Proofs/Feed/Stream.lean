import OperationFeed.Feed.Add
import OperationFeed.Feed.Close
import OperationFeed.Proofs.Feed.Core
import OperationFeed.Proofs.Log

/-!
# The stream of operations

What the steps on the log leave: adding, acknowledging, cutting and closing, each for every facade.

Adding has the most ways to go. The log may take the operation (`Feed.Takes`) or reject the number
that was given out for it (`Feed.Rejects`), and the same holds for a checkpoint that is due before
it (`Feed.Prepares`). `Feed.AddCourse` lists the four courses that a call of `Feed.add` can take,
and `Feed.add_course` says that there are no others; whatever is to be proved of `Feed.add` is
proved for each course.
-/

namespace OperationFeed

namespace Feed

/-! ### One operation -/

/-- The log takes an operation, under the number that the metadata offers. -/
structure Takes (op : Operation) (feed feed' : Feed) : Prop where
  accepted : feed.log.append feed.metadata.offered (op.withNumber feed.metadata.offered) =
    .ok feed'.log
  eq : feed' = { feed with metadata := feed.metadata.numbered op, log := feed'.log }

/-- The log rejects the number that the metadata offers for an operation. The number is given out,
and marked for a checkpoint, all the same. -/
structure Rejects (op : Operation) (cause : OutOfOrder) (feed feed' : Feed) : Prop where
  refused : feed.log.append feed.metadata.offered (op.withNumber feed.metadata.offered) =
    .error cause
  eq : feed' = { feed with metadata := feed.metadata.numbered op }

@[simp] theorem effect_allocateNumber (feed : Feed) :
    allocateNumber.effect feed =
      (feed.metadata.offered, { feed with metadata := feed.metadata.taken }) := (rfl)

@[simp] theorem effect_markCheckpoint (number : SequenceNumber) (feed : Feed) :
    (markCheckpoint number).effect feed =
      ((), { feed with
        metadata := ((Metadata.setPoint number).effect
          ((Metadata.recordMarker number ⟨number⟩).effect feed.metadata).2).2 }) := (rfl)

/-- The number is taken whether or not the log takes the operation under it. -/
theorem effect_append (op : Operation) (feed : Feed) :
    (append op).effect feed =
      match feed.log.append feed.metadata.offered (op.withNumber feed.metadata.offered) with
      | .ok log =>
        (.ok feed.metadata.offered, { feed with metadata := feed.metadata.numbered op, log })
      | .error cause =>
        (.error (.log cause), { feed with metadata := feed.metadata.numbered op }) := by
  simp only [append, Attempt.effect_bind, Attempt.effect_lift, effect_allocateNumber]
  -- a checkpoint is marked before the log is asked, so the mark is there in both cases
  cases h_kind : op.isCheckpoint <;>
    simp only [if_true, Bool.false_eq_true, if_false, Metadata.numbered, h_kind,
      Attempt.effect_bind, Attempt.effect_get, Attempt.effect_lift, effect_markCheckpoint]
  all_goals
    split
    · next cause h_log => simp [h_log]
    · next log h_log => simp [h_log, Attempt.effect_bind]

/-- The log takes an operation or rejects the number that was given out for it. -/
theorem append_cases (op : Operation) (feed : Feed) :
    (∃ feed', Takes op feed feed' ∧
      (append op).effect feed = (.ok feed.metadata.offered, feed')) ∨
    ∃ cause feed', Rejects op cause feed feed' ∧
      (append op).effect feed = (.error (.log cause), feed') := by
  rw [effect_append]
  split
  · next log h_log => exact .inl ⟨_, ⟨h_log, rfl⟩, rfl⟩
  · next cause h_log => exact .inr ⟨cause, _, ⟨h_log, rfl⟩, rfl⟩

/-! ### Adding -/

/-- The feed once the readers are told of an operation. -/
def woken (feed : Feed) : Feed := { feed with arrivals := (feed.arrivals.resolve .completed).2 }

/-- What happens between the admission of an operation and its own append: a checkpoint that is due
is inserted. -/
inductive Prepares (op : Operation) (feed : Feed) : Feed → Prop
  | notDue (h : (!op.isCheckpoint && feed.checkpointDue) = false) : Prepares op feed feed
  | inserted {feed' : Feed} (h : (!op.isCheckpoint && feed.checkpointDue) = true)
      (takes : Takes .checkpoint feed feed') :
      Prepares op feed { feed' with lastAutoCheckpoint := feed.metadata.offered }

/-- To take an operation into the log does not yet tell the readers. -/
theorem Takes.arrivals {op : Operation} {feed feed' : Feed} (takes : Takes op feed feed') :
    feed'.arrivals = feed.arrivals := by rw [takes.eq]

/-- Readers are not told of the checkpoint that comes before an operation. -/
theorem Prepares.arrivals {op : Operation} {feed feed' : Feed} (prepares : Prepares op feed feed') :
    feed'.arrivals = feed.arrivals := by
  cases prepares with
  | notDue _ => rfl
  | inserted _ takes => exact takes.arrivals

/-- Those who wait for the log to drain are not concerned by that checkpoint. -/
theorem Prepares.drained {op : Operation} {feed feed' : Feed} (prepares : Prepares op feed feed') :
    feed'.drained = feed.drained := by
  cases prepares with
  | notDue _ => rfl
  | inserted _ takes => rw [takes.eq]

/-- Nothing is closed by that checkpoint. -/
theorem Prepares.isClosed {op : Operation} {feed feed' : Feed} (prepares : Prepares op feed feed') :
    feed'.isClosed = feed.isClosed := by
  cases prepares with
  | notDue _ => rfl
  | inserted _ takes => rw [takes.eq]

/-- A call of `Feed.add` gets past every check: the call is counted, and no fault strikes. -/
structure Admits (op : Operation) (feed : Feed) : Prop where
  isOpen : feed.isClosed = false
  unnumbered : op.sequenceNumber = none
  noFault : feed.strike .add = none

/-- The courses that adding an operation can take. -/
inductive AddCourse (op : Operation) (feed : Feed) : Except FeedError SequenceNumber → Feed → Prop
  -- The call is refused before it has any effect.
  | refused {e : FeedError} {feed' : Feed} (same : SameCore feed feed')
      (why : (feed.isClosed = true ∧ e = .closed) ∨
        (∃ number, op.sequenceNumber = some number ∧ e = .alreadySequenced number) ∨
        feed.strike .add = some e) :
      AddCourse op feed (.error e) feed'
  -- The log rejects the checkpoint that is due.
  | rejectedCheckpoint {cause : OutOfOrder} {feed' : Feed} (admits : Admits op feed)
      (due : (!op.isCheckpoint && (feed.counted .add).checkpointDue) = true)
      (rejects : Rejects .checkpoint cause (feed.counted .add) feed') :
      AddCourse op feed (.error (.log cause)) feed'
  -- The log rejects the operation, perhaps after it took a checkpoint.
  | rejected {cause : OutOfOrder} {feed₁ feed' : Feed} (admits : Admits op feed)
      (prepares : Prepares op (feed.counted .add) feed₁) (rejects : Rejects op cause feed₁ feed') :
      AddCourse op feed (.error (.log cause)) feed'
  -- The log takes the operation, and the readers are told.
  | accepted {feed₁ feed₂ : Feed} (admits : Admits op feed)
      (prepares : Prepares op (feed.counted .add) feed₁) (takes : Takes op feed₁ feed₂) :
      AddCourse op feed (.ok feed₁.metadata.offered) feed₂.woken

/-- Adding does not concern those who wait for the log to drain. -/
theorem AddCourse.drained {op : Operation} {feed feed' : Feed}
    {result : Except FeedError SequenceNumber} (course : AddCourse op feed result feed') :
    feed'.drained = feed.drained := by
  -- a rejected append has only numbered; an accepted one has also told the readers
  cases course with
  | refused same why => exact same.drained
  | rejectedCheckpoint admits due rejects =>
    rw [rejects.eq]
    rfl
  | rejected admits prepares rejects =>
    rw [rejects.eq]
    exact prepares.drained
  | accepted admits prepares takes =>
    rw [woken, takes.eq]
    exact prepares.drained

/-- The checkpoint that is due is taken by the log, and remembered, or its number is rejected. -/
theorem insertCheckpoint_cases (feed : Feed) :
    (∃ feed', Takes .checkpoint feed feed' ∧
      insertCheckpoint.effect feed =
        (.ok (), { feed' with lastAutoCheckpoint := feed.metadata.offered })) ∨
    ∃ cause feed', Rejects .checkpoint cause feed feed' ∧
      insertCheckpoint.effect feed = (.error (.log cause), feed') := by
  rcases append_cases .checkpoint feed with ⟨feed', takes, h⟩ | ⟨cause, feed', rejects, h⟩
  · exact .inl ⟨feed', takes, by simp [insertCheckpoint, Attempt.effect_bind, h]⟩
  · exact .inr ⟨cause, feed', rejects, by simp [insertCheckpoint, Attempt.effect_bind, h]⟩

/-- The end of a call of `Feed.add`: the operation's own append, and the readers told of it. -/
def finishAdd (op : Operation) : Attempt Feed SequenceNumber := do
  let number ← append op
  if ← resolveArrivals .completed then
    tell (.trace "woke readers waiting for add" [("sequence", .number number.toNat)])
  return number

/-- The readers are told exactly if the log takes the operation. -/
theorem finishAdd_cases (op : Operation) (feed : Feed) :
    (∃ feed', Takes op feed feed' ∧
      (finishAdd op).effect feed = (.ok feed.metadata.offered, feed'.woken)) ∨
    ∃ cause feed', Rejects op cause feed feed' ∧
      (finishAdd op).effect feed = (.error (.log cause), feed') := by
  rcases append_cases op feed with ⟨feed', takes, h⟩ | ⟨cause, feed', rejects, h⟩
  · refine .inl ⟨feed', takes, ?_⟩
    rw [finishAdd, Attempt.effect_bind, h]
    simp only [Attempt.effect_bind, Attempt.effect_lift, Attempt.effect_ite, resolveArrivals,
      Act.effect_modifyGet, effect_tell, Attempt.effect_pure]
    -- whether anybody waited decides on the event, and the slot is the same
    split <;> rfl
  · refine .inr ⟨cause, feed', rejects, ?_⟩
    rw [finishAdd, Attempt.effect_bind, h]

/-- Three checks, in this order, and then the checkpoint if it is due, and the end. -/
theorem effect_add (op : Operation) (feed : Feed) :
    (add op).effect feed =
      if feed.isClosed then (.error .closed, feed)
      else match op.sequenceNumber with
        | some number => (.error (.alreadySequenced number), feed)
        | none =>
          match feed.strike .add with
          | some e => (.error e, feed.counted .add)
          | none =>
            if !op.isCheckpoint && (feed.counted .add).checkpointDue then
              (do insertCheckpoint; finishAdd op).effect (feed.counted .add)
            else
              (finishAdd op).effect (feed.counted .add) := by
  -- the checks come one after another, and the first that fails ends the call
  cases h_closed : feed.isClosed with
  | true => simp [add, Attempt.effect_bind, h_closed]
  | false =>
  cases h_number : op.sequenceNumber with
  | some number => simp [add, Attempt.effect_bind, h_closed, h_number]
  | none =>
  cases h_strike : feed.strike .add with
  | some e => simp [add, Attempt.effect_bind, h_closed, h_number, h_strike]
  | none =>
    simp only [add, Attempt.effect_bind, effect_requireOpen, h_closed, h_number, effect_failAt,
      h_strike, Option.elim, Bool.false_eq_true, if_false, Attempt.effect_get, Attempt.effect_ite,
      finishAdd]

/-- The operation's own append, from wherever its preparation has led. -/
theorem finishAdd_course {op : Operation} {feed feed₁ : Feed} (admits : Admits op feed)
    (prepares : Prepares op (feed.counted .add) feed₁) :
    AddCourse op feed ((finishAdd op).effect feed₁).1 ((finishAdd op).effect feed₁).2 := by
  rcases finishAdd_cases op feed₁ with ⟨feed', takes, h⟩ | ⟨cause, feed', rejects, h⟩
  · rw [h]
    exact .accepted admits prepares takes
  · rw [h]
    exact .rejected admits prepares rejects

/-- Adding an operation takes one of the four courses. -/
theorem add_course (op : Operation) (feed : Feed) :
    AddCourse op feed ((add op).effect feed).1 ((add op).effect feed).2 := by
  rw [effect_add]
  split
  · next h_closed => exact .refused (.refl feed) (.inl ⟨h_closed, rfl⟩)
  next h_closed =>
  cases h_number : op.sequenceNumber with
  | some number => exact .refused (.refl feed) (.inr (.inl ⟨number, h_number, rfl⟩))
  | none =>
  cases h_strike : feed.strike .add with
  | some e => exact .refused (.counted feed .add) (.inr (.inr h_strike))
  | none =>
  -- past all checks: one of the courses that number an operation
  have admits : Admits op feed := ⟨Bool.not_eq_true _ ▸ h_closed, h_number, h_strike⟩
  dsimp only
  split
  · next h_due =>
    -- the checkpoint comes first, and its rejection ends the call
    rw [Attempt.effect_bind]
    rcases insertCheckpoint_cases (feed.counted .add) with
      ⟨feed', takes, h⟩ | ⟨cause, feed', rejects, h⟩
    · rw [h]
      exact finishAdd_course admits (.inserted h_due takes)
    · rw [h]
      exact .rejectedCheckpoint admits h_due rejects
  · next h_due => exact finishAdd_course admits (.notDue (Bool.not_eq_true _ ▸ h_due))

/-! ### Acknowledging -/

@[simp] theorem effect_isTruncationPoint (number : SequenceNumber) (feed : Feed) :
    (isTruncationPoint number).effect feed = (feed.metadata.store.isPoint number, feed) := by
  rw [isTruncationPoint, effect_onMetadata, Metadata.effect_isPoint]

/-- Three checks, in this order; then the cut is a task, unless the fault of its result strikes. -/
theorem effect_acknowledge (upTo : SequenceNumber) (feed : Feed) :
    (acknowledge upTo).effect feed =
      if feed.isClosed then (.error .closed, feed)
      else if feed.metadata.store.isPoint upTo then
        match feed.strike .ackSync with
        | some e => (.error e, feed.counted .ackSync)
        | none =>
          (.ok (((feed.counted .ackSync).strike .ackAsync).elim (.task (.truncate upTo))
            fun e => .ready (.error e)), (feed.counted .ackSync).counted .ackAsync)
      else (.error (.invalidTruncationPoint upTo), feed) := by
  cases h_closed : feed.isClosed
  · cases h_point : feed.metadata.store.isPoint upTo
    · simp [acknowledge, Attempt.effect_bind, h_closed, h_point]
    · cases h_strike : feed.strike .ackSync <;>
        simp [acknowledge, Attempt.effect_bind, h_closed, h_point, h_strike]
  · simp [acknowledge, Attempt.effect_bind, h_closed]

/-- Making an acknowledgement leaves the core alone: the log is cut by the task, later. -/
theorem SameCore.acknowledge (upTo : SequenceNumber) (feed : Feed) :
    SameCore feed ((acknowledge upTo).effect feed).2 := by
  rw [effect_acknowledge]
  split
  · exact .refl feed
  · split
    · split
      · exact .counted feed .ackSync
      · exact (SameCore.counted feed .ackSync).trans (.counted _ .ackAsync)
    · exact .refl feed

/-- An acknowledgement is accepted only at a truncation point, and starts the cut unless a fault
strikes. -/
theorem launch_of_acknowledge {upTo : SequenceNumber} {feed : Feed} {launch : FeedLaunch}
    (h : ((acknowledge upTo).effect feed).1 = .ok launch) :
    feed.metadata.store.isPoint upTo = true ∧
      (launch = .task (.truncate upTo) ∨ ∃ e, launch = .ready (.error e)) := by
  rw [effect_acknowledge] at h
  split at h
  · cases h
  split at h
  · next h_point =>
    refine ⟨h_point, ?_⟩
    split at h
    · cases h
    · obtain rfl := Except.ok.inj h
      -- admitted: the fault of the result is left, and decides on the task
      cases (feed.counted .ackSync).strike .ackAsync with
      | none => exact .inl rfl
      | some e => exact .inr ⟨e, rfl⟩
  · cases h

/-- The feed once an acknowledgement has cut the log, if acknowledgements do. -/
def cut (upTo : SequenceNumber) (feed : Feed) : Feed :=
  if feed.ackEffective then
    { feed with
      log := (feed.log.truncate upTo).2
      metadata := ((Metadata.removeMarkers upTo).effect feed.metadata).2 }
  else
    feed

/-- Carrying out an acknowledgement is the cut, and those who wait for the log to drain are told if
nothing above the number is left. -/
theorem effect_truncate (upTo : SequenceNumber) (feed : Feed) :
    (truncate upTo).effect feed =
      ((), if (feed.cut upTo).isDrainedBy upTo then
        { feed.cut upTo with drained := ((feed.cut upTo).drained.resolve .completed).2 }
      else feed.cut upTo) := by
  -- the second half, from whatever the cut has left
  have told : ∀ feed : Feed, (do
      if (← get).isDrainedBy upTo then
        if ← resolveDrained .completed then
          tell (.debug "log fully acknowledged" [("up_to", .number upTo.toNat)])
      : Act Feed Unit).effect feed =
      ((), if feed.isDrainedBy upTo then
        { feed with drained := (feed.drained.resolve .completed).2 } else feed) := by
    intro feed
    simp only [Act.effect_bind, Act.effect_get, Act.effect_ite, resolveDrained,
      Act.effect_modifyGet, effect_tell, Act.effect_pure]
    split <;> simp
  cases h : feed.ackEffective
  · rw [cut, h]
    simpa [truncate, h] using told feed
  · rw [cut, h]
    simpa [truncate, h] using told _

section Cut

variable (upTo : SequenceNumber) (feed : Feed)

@[simp] theorem cut_arrivals : (feed.cut upTo).arrivals = feed.arrivals := by
  unfold cut; split <;> rfl

@[simp] theorem cut_isClosed : (feed.cut upTo).isClosed = feed.isClosed := by
  unfold cut; split <;> rfl

@[simp] theorem cut_ackEffective : (feed.cut upTo).ackEffective = feed.ackEffective := by
  unfold cut; split <;> rfl

@[simp] theorem cut_drained : (feed.cut upTo).drained = feed.drained := by
  unfold cut; split <;> rfl

/-- The log is cut if acknowledgements are in effect. -/
theorem log_cut : (feed.cut upTo).log =
    if feed.ackEffective then (feed.log.truncate upTo).2 else feed.log := by
  unfold cut; split <;> rfl

@[simp] theorem cut_highWater : (feed.cut upTo).log.highWater = feed.log.highWater := by
  unfold cut; split <;> rfl

@[simp] theorem cut_current :
    (feed.cut upTo).metadata.store.current = feed.metadata.store.current := by
  unfold cut
  rw [Metadata.effect_removeMarkers]
  split <;> rfl

/-- A facade that keeps no record keeps none by a cut. -/
theorem cut_plain (h : feed.metadata.record = none) : (feed.cut upTo).metadata.record = none := by
  unfold cut
  rw [Metadata.effect_removeMarkers]
  split
  · simp [h]
  · exact h

end Cut

/-- An acknowledgement leaves of the log what its cut leaves. -/
theorem log_truncate (upTo : SequenceNumber) (feed : Feed) :
    ((truncate upTo).effect feed).2.log =
      if feed.ackEffective then (feed.log.truncate upTo).2 else feed.log := by
  rw [effect_truncate]
  split <;> exact log_cut upTo feed

/-- The log is drained by an acknowledgement if it is empty, or ends at the number at the latest. -/
theorem isDrainedBy_eq (feed : Feed) (upTo : SequenceNumber) :
    feed.isDrainedBy upTo =
      (feed.log.isEmpty || feed.log.lastNumber?.any (fun last => last ≤ upTo)) := by
  cases h_last : feed.log.lastNumber? with
  | none =>
    rw [isDrainedBy, h_last, Log.lastNumber?_eq_none.mp h_last, Option.all_none, Bool.true_or]
  | some last =>
    -- a log that has a last number is not empty
    have h_log : feed.log.isEmpty = false := by
      apply Bool.eq_false_iff.mpr
      intro h_empty
      rw [Log.lastNumber?_eq_none.mpr h_empty] at h_last
      cases h_last
    rw [isDrainedBy, h_last, h_log, Option.all_some, Option.any_some, Bool.false_or]

/-- An effective acknowledgement drains the log only by emptying it. -/
theorem isDrainedBy_truncate {upTo : SequenceNumber} {feed : Feed}
    (h_effective : feed.ackEffective = true) :
    ((truncate upTo).effect feed).2.isDrainedBy upTo =
      ((truncate upTo).effect feed).2.log.isEmpty := by
  rw [isDrainedBy_eq, log_truncate, if_pos h_effective]
  cases h_last : (feed.log.truncate upTo).2.lastNumber? with
  | none => rw [Option.any_none, Bool.or_false]
  | some last =>
    -- what is left lies above the number
    have h_above := UInt64.not_le.mpr (Log.lt_of_lastNumber?_truncate h_last)
    rw [Option.any_some, decide_eq_false h_above, Bool.or_false]

/-- Those who wait for the log to drain are told if it is. -/
theorem drained_truncate (upTo : SequenceNumber) (feed : Feed) :
    ((truncate upTo).effect feed).2.drained =
      if ((truncate upTo).effect feed).2.isDrainedBy upTo then (feed.drained.resolve .completed).2
      else feed.drained := by
  -- telling those who wait changes nothing of the log that is looked at
  have h_drained : ((truncate upTo).effect feed).2.isDrainedBy upTo =
      (feed.cut upTo).isDrainedBy upTo := by
    rw [effect_truncate]
    split <;> rfl
  rw [h_drained, effect_truncate]
  split
  · rw [cut_drained]
  · rw [cut_drained]

/-! ### Closing -/

/-- Closing ends both slots by cancelling them, and sets the flag; what is closed stays as it is. -/
theorem effect_close (feed : Feed) :
    close.effect feed =
      ((), if feed.isClosed then feed
      else { feed with
        isClosed := true
        arrivals := (feed.arrivals.resolve .cancelled).2
        drained := (feed.drained.resolve .cancelled).2 }) := by
  cases h : feed.isClosed <;>
    simp [close, h, resolveArrivals, resolveDrained, Metadata.container]

/-- Closing again does nothing. -/
theorem run_close_of_closed {feed : Feed} (h : feed.isClosed = true) :
    close.run feed = ⟨(), feed, []⟩ := by
  simp [close, h]

/-- A feed that was closed is closed. -/
theorem isClosed_close (feed : Feed) : (close.effect feed).2.isClosed = true := by
  rw [effect_close]
  split
  · next h_closed => exact h_closed
  · rfl

end Feed

end OperationFeed
