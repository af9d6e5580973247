import OperationFeed.Proofs.Run.History
import OperationFeed.Proofs.Run.Idle

/-!
# What reads result in

A handle is resolved either by the call that it was made for, which then had its result at once, or
by a turn of the task behind it. For a read, the first happens if there is something to read or a
fault strikes, and the second is a turn of its reader. `ReadOutcome` lists what the result can be in
both cases, together with what is known of the feed at that step.

`Run.read_outcome` proves it for every accepted read of every run. It adds the two things that a
caller may rely on while there is no result: a read that found something has never joined the slot,
and one that finds nothing for itself goes on waiting, with the deadline that it had from the start.
-/

namespace OperationFeed

/-- From the time at which a deadline was fixed, the whole span passes until it is reached. -/
theorem le_of_deadlineAfter {now deadline : Nat} {span : Duration}
    (h : deadlineAfter now span = some deadline) :
    now * Duration.millisecond + span.nanoseconds ≤ deadline * Duration.millisecond := by
  unfold deadlineAfter at h
  split at h
  · have h_deadline : deadline = now + span.ceilMilliseconds := (Option.some.inj h).symm
    -- the span is rounded up to whole milliseconds
    have h_ceil : span.nanoseconds ≤ span.ceilMilliseconds * Duration.millisecond := by
      unfold Duration.ceilMilliseconds Duration.millisecond
      omega
    rw [h_deadline, Nat.add_mul]
    exact Nat.add_le_add_left h_ceil _
  · cases h

/-- All attached readers but one are still there after the step, and attached. -/
def Step.OthersStay (s : Step) (handle : Handle) : Prop :=
  ∀ other reader, other ≠ handle → (other, FeedTask.read reader) ∈ s.before.executor.tasks →
    s.before.state.arrivals.IsAttached reader.waiter →
      (other, FeedTask.read reader) ∈ s.after.executor.tasks ∧
        s.after.state.arrivals.IsAttached reader.waiter

/-- What the result of a read can be, if the read was made in one step and its handle is resolved in
another, or in the same. That nothing is in the log is known while `few` numbers were given out. -/
inductive ReadOutcome (few : Prop) (call s : Step) (handle : Handle) (after : SequenceNumber)
    (max : Nat) (timeout : Duration) : FeedResult → Prop
  -- The first operations in the log after the number, in order.
  | batch (entries : List FeedEntry)
      (first : entries = (s.before.state.log.entries.filter (fun e => after < e.number)).take max)
      (increasing : entries.Pairwise (fun a b => a.number < b.number))
      (stamped : ∀ e ∈ entries, e.item.sequenceNumber = some e.number)
      (nonempty : max ≠ 0 → entries ≠ []) :
      ReadOutcome few call s handle after max timeout (.ok (.batch (entries.map (·.item))))
  -- The time is over that was allowed when the read was made. All others go on waiting.
  | timeout (deadline : Nat)
      (fixed : deadlineAfter call.before.executor.clock timeout = some deadline)
      (late : deadline ≤ s.before.executor.clock)
      (elapsed : call.before.executor.clock * Duration.millisecond + timeout.nanoseconds ≤
        s.before.executor.clock * Duration.millisecond)
      (nothing : few → ∀ e ∈ s.before.state.log.entries, e.number ≤ after)
      (others : s.OthersStay handle) :
      ReadOutcome few call s handle after max timeout (.error (.timeout timeout))
  -- The feed was closed.
  | cancelled (isClosed : s.before.state.isClosed = true) :
      ReadOutcome few call s handle after max timeout (.error .cancelled)
  -- A fault has struck the call itself.
  | injected (e : FeedError) (atOnce : s = call)
      (strikes : (call.before.state.counted .readSync).strike .readAsync = some e) :
      ReadOutcome few call s handle after max timeout (.error e)

namespace ReadOutcome

variable {few : Prop} {call s : Step} {handle : Handle} {after : SequenceNumber} {max : Nat}
  {timeout : Duration}

/-- What is read from a log that holds an end of the history. -/
theorem of_serves {history : List FeedEntry}
    (chronicle : Chronicle history s.before.state.log) (serves : s.before.state.Serves after max) :
    ReadOutcome few call s handle after max timeout
      (.ok (.batch (s.before.state.log.read after max))) := by
  have h_sublist : List.Sublist
      ((s.before.state.log.entries.filter (fun e => after < e.number)).take max)
      s.before.state.log.entries :=
    (List.take_sublist _ _).trans List.filter_sublist
  rw [Log.read_eq]
  refine .batch _ rfl (s.before.state.log.sorted.sublist h_sublist) ?_ ?_
  · intro e h_mem
    exact chronicle.stamped e (chronicle.suffix.mem (h_sublist.mem h_mem))
  · intro h_max h_nil
    rw [List.take_eq_nil_iff, List.filter_eq_nil_iff] at h_nil
    -- it was served for a reason, so the batch is empty only if none was asked for
    rcases serves with h_zero | ⟨e, h_mem, h_lt⟩
    · exact h_max h_zero
    · exact h_nil.resolve_left h_max e h_mem (decide_eq_true h_lt)

/-- What the time of a reader being over means. -/
theorem of_late {waiter : Waiter}
    (late : (Reader.mk after max (deadlineAfter call.before.executor.clock timeout) timeout
      waiter).isOverdue s.before.executor.clock = true)
    (nothing : few → ¬ s.before.state.Serves after max) (others : s.OthersStay handle) :
    ReadOutcome few call s handle after max timeout (.error (.timeout timeout)) := by
  obtain ⟨deadline, h_fixed, h_le⟩ := (Option.any_eq_true _ _).mp late
  have h_le : deadline ≤ s.before.executor.clock := of_decide_eq_true h_le
  refine .timeout deadline h_fixed h_le ?_
    (fun h_few => (Feed.not_serves.mp (nothing h_few)).2) others
  calc call.before.executor.clock * Duration.millisecond + timeout.nanoseconds
      ≤ deadline * Duration.millisecond := le_of_deadlineAfter h_fixed
    _ ≤ s.before.executor.clock * Duration.millisecond := Nat.mul_le_mul_right _ h_le

end ReadOutcome

/-- A reader that goes away leaves the others where they are: they wait for the same notification,
which stays pending. -/
theorem Waiting.othersStay {few : Prop} {s : Step} {handle : Handle}
    (waiting' : Waiting few s.after.state s.after.executor.tasks)
    (h_past : s.after.state.arrivals.past = s.before.state.arrivals.past)
    (h_others : ∀ p ∈ s.before.executor.tasks, p.1 ≠ handle → p ∈ s.after.executor.tasks) :
    s.OthersStay handle := by
  intro other reader h_ne h_mem h_attached
  have h_mem' := h_others _ h_mem h_ne
  refine ⟨h_mem', waiting'.attached_of_pending h_mem' ?_⟩
  rw [WaitSlot.answer?_eq_none, h_past]
  exact Nat.le_of_eq h_attached.2.symm

/-- What the turn of a reader results in, if it is the last one. -/
theorem ReadOutcome.of_turn {few few' : Prop} {history : List FeedEntry} {call s : Step}
    {handle : Handle} {after : SequenceNumber} {max : Nat} {timeout : Duration} {waiter : Waiter}
    {result : FeedResult} (chronicle : Chronicle history s.before.state.log)
    (waiting : Waiting few s.before.state s.before.executor.tasks)
    (waiting' : Waiting few' s.after.state s.after.executor.tasks)
    (h_mem : (handle, FeedTask.read ⟨after, max, deadlineAfter call.before.executor.clock timeout,
      timeout, waiter⟩) ∈ s.before.executor.tasks)
    (course : Feed.ReaderCourse s.before.executor.clock ⟨after, max,
      deadlineAfter call.before.executor.clock timeout, timeout, waiter⟩ s.before.state
      (.finished result) s.after.state)
    (h_others : ∀ p ∈ s.before.executor.tasks, p.1 ≠ handle → p ∈ s.after.executor.tasks) :
    ReadOutcome few call s handle after max timeout result := by
  generalize h_after : s.after.state = feed' at course
  -- a turn that parks the reader again has no result
  cases course with
  | expired pending late =>
    -- the notification is still pending, so nothing has come for this reader
    have attached := waiting.attached_of_pending h_mem pending
    refine .of_late late (fun h_few => waiting.unserved h_few _ _ h_mem attached.2) ?_
    refine waiting'.othersStay ?_ h_others
    rw [h_after, WaitSlot.past_releaseIfAbandoned, WaitSlot.past_leave]
  | rejoinedExpired answered isOpen serves late =>
    refine .of_late late (fun _ => serves) (waiting'.othersStay ?_ h_others)
    rw [h_after, WaitSlot.past_releaseIfAbandoned, WaitSlot.past_leave, WaitSlot.past_join]
  | cancelled answered =>
    -- an open feed has cancelled nobody
    refine .cancelled (Bool.of_not_eq_false ?_)
    intro h_open
    have h_completed := waiting.completed h_open _ (List.mem_of_getElem? answered)
    cases h_completed
  | closed answered isClosed => exact .cancelled isClosed
  | found answered isOpen serves => exact .of_serves chronicle serves

/-! ### Reads that do not wait, and reads that go on waiting -/

/-- The call has had its result at once, without a place in the slot and without a task. -/
structure Step.SettledAtOnce (s : Step) (handle : Handle) : Prop where
  result : ∃ result, s.after.executor.handles[handle]? = some (.resolved result)
  arrivals : s.after.state.arrivals = s.before.state.arrivals
  tasks : s.after.executor.tasks = s.before.executor.tasks

/-- A read that finds something, or meets a fault, is settled in its own step. -/
theorem Step.AcceptsRead.settledAtOnce {s : Step} {handle : Handle} {after : SequenceNumber}
    {max : Nat} {timeout : Duration} (accepts : s.AcceptsRead handle after max timeout)
    (serves : s.before.state.Serves after max) : s.SettledAtOnce handle := by
  obtain ⟨rfl, launch, feed', course, start⟩ := accepts.course
  -- the common end: a result is there, and only counters have changed
  have settled : ∀ result, launch = .ready result → s.before.state.SameCore feed' →
      s.SettledAtOnce s.before.executor.handles.length := by
    rintro result rfl same
    generalize h_after : s.after = m' at start
    cases start
    refine ⟨⟨result, ?_⟩, ?_, by rw [h_after]; rfl⟩
    · rw [h_after]
      exact List.getElem?_concat_length
    · rw [h_after]
      exact same.arrivals
  cases course with
  | struck same strikes => exact settled _ rfl same
  | found same isOpen _ => exact settled _ rfl same
  | waits same isOpen unserved => exact absurd serves unserved

/-- The read that was made in a step has no result yet after another step, and its reader is there,
with the deadline that was fixed when the read was made. -/
structure Step.StillWaits (call s : Step) (handle : Handle) (after : SequenceNumber) (max : Nat)
    (timeout : Duration) : Prop where
  unresolved : ∀ result, ¬ s.Resolves handle result
  reader : ∃ task, (handle, task) ∈ s.after.executor.tasks ∧
    task.IsReaderOf call.before.executor.clock after max timeout

namespace Run

variable {feed : Feed} {steps : List Step} {m : FeedMachine} {s call : Step} {handle : Handle}
  {after : SequenceNumber} {max : Nat} {timeout : Duration}

/-- In an open feed, a read that finds nothing in time goes on waiting, whatever the step does. -/
theorem stillWaits (run : Run feed (steps ++ [s]) m) (h_live : s.action ≠ .executor .shutdown)
    (h_call : call ∈ steps) (accepts : call.AcceptsRead handle after max timeout)
    {few : Prop} (waiting : Waiting few s.before.state s.before.executor.tasks)
    (h_unresolved : s.before.IsUnresolved handle) (isOpen : s.before.state.isClosed = false)
    (unserved : ¬ s.before.state.Serves after max)
    (early : ∀ deadline, deadlineAfter call.before.executor.clock timeout = some deadline →
      s.before.executor.clock < deadline) :
    Step.StillWaits call s handle after max timeout := by
  have run' : Run feed steps s.before := run.of_append rfl
  obtain ⟨waiter, h_mem⟩ := run'.reader_of_unresolved h_call accepts h_unresolved
  have h_task : ∃ task, (handle, task) ∈ s.after.executor.tasks ∧
      task.IsReaderOf call.before.executor.clock after max timeout := by
    cases Step.task_fate run'.sound h_mem with
    | kept live => exact ⟨_, live, waiter, rfl⟩
    | parked task' h_action live course =>
      exact ⟨task', live, (Feed.isReaderOf_of_parked course).mpr ⟨waiter, rfl⟩⟩
    | finished result h_action course =>
      -- each way in which a reader ends is ruled out by what is known of the feed
      exfalso
      have not_late :
          (Reader.mk after max (deadlineAfter call.before.executor.clock timeout) timeout
            waiter).isOverdue s.before.executor.clock ≠ true := by
        intro late
        obtain ⟨deadline, h_fixed, h_le⟩ := (Option.any_eq_true _ _).mp late
        exact Nat.not_le_of_lt (early deadline h_fixed) (of_decide_eq_true h_le)
      generalize s.after.state = feed' at course
      cases course with
      | attributes same changes => cases changes
      | read course =>
        cases course with
        | expired pending late => exact not_late late
        | cancelled answered =>
          have h_completed := waiting.completed isOpen _ (List.mem_of_getElem? answered)
          cases h_completed
        | closed answered isClosed => exact Bool.false_ne_true (isOpen.symm.trans isClosed)
        | found answered isOpen serves => exact unserved serves
        | rejoinedExpired answered isOpen serves late => exact not_late late
    | ended h_action => exact absurd h_action h_live
  refine ⟨?_, h_task⟩
  intro result resolves
  -- where there is a task, there is no result
  obtain ⟨task, h_live_task, -⟩ := h_task
  have h_sound := run.sound
  rw [← run.after_eq] at h_sound
  have h_may := h_sound.mayHaveTask _ h_live_task
  rw [Executor.MayHaveTask, resolves.after] at h_may
  rcases h_may with h | h <;> cases h

/-- What every read results in, and what is known of it before. -/
theorem read_outcome {facade : Metadata.Facade} {container : ContainerId} {config : Config}
    (h_facade : facade = .plain ∨ facade = .traced)
    (h_make : Feed.make (.fresh facade container) config = .ok feed)
    (run : Run feed (steps ++ [s]) m) (h_live : ∀ c ∈ steps ++ [s], c.action ≠ .executor .shutdown)
    (h_call : call ∈ steps ++ [s]) (accepts : call.AcceptsRead handle after max timeout) :
    (∀ result, s.Resolves handle result →
      ReadOutcome (allocated steps < UInt64.size) call s handle after max timeout result ∧
        s.after.state.log = s.before.state.log) ∧
    (call.before.state.Serves after max →
      call.SettledAtOnce handle ∧ ∀ task, (handle, task) ∉ s.after.executor.tasks) ∧
    (s.before.IsUnresolved handle → s.before.state.isClosed = false →
      ¬ s.before.state.Serves after max →
      (∀ deadline, deadlineAfter call.before.executor.clock timeout = some deadline →
        s.before.executor.clock < deadline) →
      Step.StillWaits call s handle after max timeout) := by
  have h_new := Feed.isNew_of_make h_make
  have h_plain := Feed.record_of_make h_make h_facade
  have run' : Run feed steps s.before := run.of_append rfl
  have h_live' : ∀ c ∈ steps, c.action ≠ .executor .shutdown :=
    fun c h_c => h_live c (List.mem_append_left _ h_c)
  have h_last : s.action ≠ .executor .shutdown :=
    h_live s (List.mem_append_right _ (List.mem_cons_self ..))
  have waiting := Waiting.of_run h_new h_plain run' h_live'
  have waiting' := Waiting.of_run h_new h_plain run h_live
  rw [← run.after_eq] at waiting'
  have chronicle := Chronicle.of_run h_new.log run'
  refine ⟨?_, ?_, ?_⟩
  · intro result resolves
    -- a result comes from the call itself or from a turn of the reader; nothing was shut down
    cases run.read_origin h_call accepts resolves with
    | called feed' atOnce course state =>
      subst atOnce
      refine ⟨?_, by rw [state]; exact (Feed.SameStream.asyncCourse (.read course)).log⟩
      cases course with
      | struck same strikes => exact .injected _ rfl strikes
      | found same isOpen serves => exact .of_serves chronicle serves
    | turned waiter live course others =>
      exact ⟨.of_turn chronicle waiting waiting' live course others,
        (Feed.SameStream.readerCourse course).log⟩
    | ended why result_eq =>
      rcases why with dead | h_action
      · exact absurd (run'.alive h_live') (Bool.eq_false_iff.mp dead)
      · exact absurd h_action h_last
  · intro serves
    refine ⟨accepts.settledAtOnce serves, ?_⟩
    intro task h_mem
    rw [run.after_eq] at h_mem
    -- a task would mean that there was nothing to read
    obtain ⟨-, unserved⟩ := (run.task_of_read h_call accepts).2 task h_mem
    exact unserved serves
  · intro h_unresolved isOpen unserved early
    -- the read is an older one: before its own call, it has no handle
    rcases List.mem_append.mp h_call with h_call | h_call
    · exact run.stillWaits h_last h_call accepts waiting h_unresolved isOpen unserved early
    · obtain rfl := List.mem_singleton.mp h_call
      have h_handle := accepts.course.1
      rcases h_unresolved with h_wait | ⟨task, h_mem⟩
      · rw [h_handle, List.getElem?_eq_none (Nat.le_refl _)] at h_wait
        cases h_wait
      · have h_lt := (run'.sound.mayHaveTask _ h_mem).lt
        rw [h_handle] at h_lt
        exact absurd h_lt (Nat.lt_irrefl _)

/-- Three reads: one is served by the operation that is added, one waits for later ones, and one
comes after the operation and does not want to wait at all. -/
def threeReads : List FeedAction :=
  [.later (.read 0 5 ⟨1000000000⟩), .later (.read 3 1 ⟨1000000000⟩), .executor (.turn 0),
    .executor (.turn 1), .now (.add (.ofKind .probe)), .later (.read 0 1 ⟨0⟩)]

/-- The turn in which the first read is served, and what it leaves of the others. -/
theorem read_outcome_of_threeReads : ∃ feed m s op,
    Feed.make (.fresh .plain 1) .standard = .ok feed ∧
    Run feed (Step.trace ⟨feed, .fresh⟩ threeReads ++ [s]) m ∧
    s.Resolves 0 (.ok (.batch [op])) ∧
    (∃ call ∈ Step.trace ⟨feed, .fresh⟩ threeReads, call.AcceptsRead 0 0 5 ⟨1000000000⟩ ∧
      ReadOutcome (allocated (Step.trace ⟨feed, .fresh⟩ threeReads) < UInt64.size) call s 0 0 5
        ⟨1000000000⟩ (.ok (.batch [op]))) ∧
    (∃ call ∈ Step.trace ⟨feed, .fresh⟩ threeReads, call.AcceptsRead 1 3 1 ⟨1000000000⟩ ∧
      Step.StillWaits call s 1 3 1 ⟨1000000000⟩) ∧
    (∃ call ∈ Step.trace ⟨feed, .fresh⟩ threeReads, call.AcceptsRead 2 0 1 ⟨0⟩ ∧
      call.SettledAtOnce 2) := by
  have h_live : ∀ m s, s.action = .executor (.turn 0) →
      ∀ c ∈ Step.trace m threeReads ++ [s], c.action ≠ .executor .shutdown := by
    intro m s h_s c h_mem h_action
    rcases List.mem_append.mp h_mem with h_mem | h_mem
    · have h_mem := Step.action_mem_of_mem_trace h_mem
      rw [h_action] at h_mem
      simp [threeReads] at h_mem
    · rw [List.mem_singleton.mp h_mem, h_s] at h_action
      cases h_action
  have h_calls : ∀ m : FeedMachine, ∀ i call, (Step.trace m threeReads)[i]? = some call →
      call ∈ Step.trace m threeReads := fun _ _ _ h => List.mem_of_getElem? h
  -- the facts about the three reads are all of the same run
  have outcome := fun feed (h_make : Feed.make (.fresh .plain 1) .standard = .ok feed) (call : Step)
      h_call handle after max timeout (accepts : call.AcceptsRead handle after max timeout) =>
    Run.read_outcome (.inl rfl) h_make
      ((Run.perform (show Run feed [] _ from .start) threeReads).step (.executor (.turn 0)))
      (h_live _ _ rfl) (List.mem_append_left _ h_call) accepts
  refine ⟨_, _, _, _, rfl, (Run.perform .start threeReads).step (.executor (.turn 0)), ⟨rfl, ?_⟩,
    ⟨_, h_calls _ 0 _ rfl, ⟨rfl, rfl⟩, ?_⟩, ⟨_, h_calls _ 1 _ rfl, ⟨rfl, rfl⟩, ?_⟩,
    ⟨_, h_calls _ 5 _ rfl, ⟨rfl, rfl⟩, ?_⟩⟩
  · intro result h
    cases (show some HandleState.waiting = some (.resolved result) from h)
  · refine ((outcome _ rfl _ (h_calls _ 0 _ rfl) 0 0 5 _ ⟨rfl, rfl⟩).1 _ ⟨rfl, ?_⟩).1
    intro result h
    cases (show some HandleState.waiting = some (.resolved result) from h)
  · refine (outcome _ rfl _ (h_calls _ 1 _ rfl) 1 3 1 _ ⟨rfl, rfl⟩).2.2 (.inl rfl) rfl
      (by decide) ?_
    intro deadline h_fixed
    obtain rfl := Option.some.inj (show some 1000 = some deadline from h_fixed)
    decide
  · exact ((outcome _ rfl _ (h_calls _ 5 _ rfl) 2 0 1 _ ⟨rfl, rfl⟩).2.1 (by decide)).1

end Run

end OperationFeed
