import OperationFeed.Proofs.Run.Reads
import OperationFeed.Proofs.Run.Waiting

/-!
# Reads that are left waiting

When no task is due a turn, a read without a result has been left waiting for a good reason:
`Suspended` lists what is known of it, and `Run.suspended_of_idle` proves it for every accepted
read. No wake-up is lost, since a read with something to read would be due a turn. No notification
is left over either: one is pending if and only if there is such a read.
-/

namespace OperationFeed

/-- A read that was made in a step is left waiting. -/
structure Suspended (s : Step) (m : FeedMachine) (handle : Handle) (after : SequenceNumber)
    (max : Nat) (timeout : Duration) : Prop where
  /-- The feed is open. -/
  isOpen : m.state.isClosed = false
  /-- There is nothing to read. -/
  nothing : ∀ e ∈ m.state.log.entries, e.number ≤ after
  /-- The deadline was fixed when the read was made, and is not reached. -/
  early : ∀ deadline, deadlineAfter s.before.executor.clock timeout = some deadline →
    m.executor.clock < deadline
  /-- The reader waits for the pending notification. -/
  attached : ∃ waiter, m.state.arrivals.IsAttached waiter ∧ (handle, FeedTask.read
    ⟨after, max, deadlineAfter s.before.executor.clock timeout, timeout, waiter⟩) ∈
      m.executor.parked

/-- A pending notification has a reader. -/
theorem Waiting.exists_reader {small : Prop} {feed : Feed} {tasks : List (Handle × FeedTask)}
    (h : Waiting small feed tasks) (h_pending : feed.arrivals.isPending = true) :
    ∃ handle reader, (handle, FeedTask.read reader) ∈ tasks ∧
      reader.waiter.generation = feed.arrivals.past.length := by
  obtain ⟨n, h_some⟩ := Option.isSome_iff_exists.mp h_pending
  have h_counted := h.counted
  rw [WaitSlot.waiterCount, h_some, Option.getD_some] at h_counted
  -- the slot counts its readers, and is not pending for none
  have h_pos : 0 < waiterCount tasks feed.arrivals.past.length := by
    apply Nat.pos_of_ne_zero
    intro h_zero
    apply h.notAbandoned
    rw [h_some, ← h_counted, h_zero]
  obtain ⟨⟨handle, task⟩, h_mem, h_waits⟩ := List.countP_pos_iff.mp h_pos
  cases task with
  | read reader => exact ⟨handle, reader, h_mem, beq_iff_eq.mp h_waits⟩
  | _ => cases h_waits

/-- A reader whose notification is not resolved waits for the pending one. -/
theorem Waiting.attached_of_pending {small : Prop} {feed : Feed}
    {tasks : List (Handle × FeedTask)} (h : Waiting small feed tasks) {handle : Handle}
    {reader : Reader} (h_mem : (handle, FeedTask.read reader) ∈ tasks)
    (pending : feed.arrivals.answer? reader.waiter = none) :
    feed.arrivals.IsAttached reader.waiter := by
  have h_eq : reader.waiter.generation = feed.arrivals.past.length :=
    Nat.le_antisymm (h.generation_le handle reader h_mem) (WaitSlot.answer?_eq_none.mp pending)
  exact ⟨h.isPending_of_waits h_mem h_eq, h_eq⟩

namespace Run

variable {feed : Feed} {steps : List Step} {m : FeedMachine}

/-- An unresolved read has a reader, and when nothing is due, the reader has been left waiting. -/
theorem suspended (run : Run feed steps m) (waiting : Waiting True m.state m.executor.tasks)
    (h_idle : m.IsIdle) {s : Step} (h_s : s ∈ steps) {handle : Handle} {after : SequenceNumber}
    {max : Nat} {timeout : Duration} (accepts : s.AcceptsRead handle after max timeout)
    (h_unresolved : m.IsUnresolved handle) : Suspended s m handle after max timeout := by
  obtain ⟨h_queue, h_parked⟩ := h_idle
  obtain ⟨waiter, h_mem⟩ := run.reader_of_unresolved h_s accepts h_unresolved
  -- it is not due a turn: neither is its notification resolved, nor is its time over
  have h_stays : (handle, FeedTask.read ⟨after, max, deadlineAfter s.before.executor.clock timeout,
      timeout, waiter⟩) ∈ m.executor.parked := by
    rw [Executor.tasks, h_queue, List.nil_append] at h_mem
    exact h_mem
  have h_ready := h_parked _ h_stays
  obtain ⟨h_answer, h_early⟩ := Bool.or_eq_false_iff.mp h_ready
  have pending : m.state.arrivals.answer? waiter = none := by
    rwa [Option.isSome_eq_false_iff, Option.isNone_iff_eq_none] at h_answer
  have attached := waiting.attached_of_pending h_mem pending
  -- no wake-up was lost, so whoever waits has nothing to read
  have unserved := waiting.unserved trivial handle _ h_mem attached.2
  refine ⟨?_, (Feed.not_serves.mp unserved).2, ?_, waiter, attached, h_stays⟩
  · -- closing would have emptied the slot
    apply Bool.eq_false_iff.mpr
    intro h_closed
    have h_pending := attached.1
    rw [WaitSlot.isPending, waiting.closed h_closed] at h_pending
    cases h_pending
  · intro deadline h_deadline
    rw [Reader.isOverdue, h_deadline, Option.any_some] at h_early
    exact Nat.lt_of_not_le (of_decide_eq_false h_early)

/-- Whenever no task is due a turn, every read without a result has been left waiting with nothing
to read, and a notification is pending exactly if there is such a read. -/
theorem suspended_of_idle {facade : Metadata.Facade} {container : ContainerId} {config : Config}
    (h_facade : facade = .plain ∨ facade = .traced)
    (h_make : Feed.make (.fresh facade container) config = .ok feed) (run : Run feed steps m)
    (h_live : ∀ s ∈ steps, s.action ≠ .executor .shutdown)
    (h_few : allocated steps < UInt64.size - 1) (h_idle : m.IsIdle) :
    (∀ s ∈ steps, ∀ handle after max timeout, s.AcceptsRead handle after max timeout →
      m.IsUnresolved handle → Suspended s m handle after max timeout) ∧
    (m.state.arrivals.isPending = true ↔ ∃ s ∈ steps, ∃ handle after max timeout,
      s.AcceptsRead handle after max timeout ∧ m.IsUnresolved handle) := by
  have h_new := Feed.isNew_of_make h_make
  have h_plain := Feed.record_of_make h_make h_facade
  have h_size : allocated steps < UInt64.size := Nat.lt_of_lt_of_le h_few (Nat.sub_le _ _)
  have waiting := (Waiting.of_run h_new h_plain run h_live).mono fun _ : True => h_size
  have h_suspended : ∀ s ∈ steps, ∀ handle after max timeout,
      s.AcceptsRead handle after max timeout → m.IsUnresolved handle →
        Suspended s m handle after max timeout := by
    intro s h_s handle after max timeout accepts h_unresolved
    exact run.suspended waiting h_idle h_s accepts h_unresolved
  refine ⟨h_suspended, ?_, ?_⟩
  · -- the pending notification has a reader, and the reader a read
    intro h_pending
    obtain ⟨handle, reader, h_mem, -⟩ := waiting.exists_reader h_pending
    obtain ⟨s, h_s, accepts, -⟩ := run.read_of_task h_mem
    exact ⟨s, h_s, handle, _, _, _, accepts, .inr ⟨_, h_mem⟩⟩
  · rintro ⟨s, h_s, handle, after, max, timeout, accepts, h_unresolved⟩
    have suspended := h_suspended s h_s handle after max timeout accepts h_unresolved
    obtain ⟨waiter, attached, -⟩ := suspended.attached
    exact attached.1

/-- Two reads, of which the first is served by the operation that is added; the second joins the
slot again. -/
def secondReadWaits : List FeedAction :=
  [.later (.read 0 5 ⟨1000000000⟩), .executor (.turn 0), .later (.read 1 5 ⟨1000000000⟩),
    .executor (.turn 1), .now (.add (.ofKind .probe)), .executor (.turn 0), .executor (.turn 1)]

/-- A read that is left waiting, after it was woken once without anything to read. -/
theorem suspended_of_second_read : ∃ feed m,
    Feed.make (.fresh .plain 1) .standard = .ok feed ∧
    Run feed (Step.trace ⟨feed, .fresh⟩ secondReadWaits) m ∧
    (∀ s ∈ Step.trace ⟨feed, .fresh⟩ secondReadWaits, s.action ≠ .executor .shutdown) ∧
    allocated (Step.trace ⟨feed, .fresh⟩ secondReadWaits) < UInt64.size - 1 ∧ m.IsIdle ∧
    ∃ s ∈ Step.trace ⟨feed, .fresh⟩ secondReadWaits, s.AcceptsRead 1 1 5 ⟨1000000000⟩ ∧
      m.IsUnresolved 1 ∧ Suspended s m 1 1 5 ⟨1000000000⟩ ∧ m.state.arrivals.isPending = true := by
  have h_live : ∀ m, ∀ s ∈ Step.trace m secondReadWaits, s.action ≠ .executor .shutdown := by
    intro m s h_mem h_action
    have h_mem := Step.action_mem_of_mem_trace h_mem
    rw [h_action] at h_mem
    simp [secondReadWaits] at h_mem
  have h_third : ∀ m call, (Step.trace m secondReadWaits)[2]? = some call →
      call ∈ Step.trace m secondReadWaits := fun _ _ h => List.mem_of_getElem? h
  refine ⟨_, _, rfl, .perform .start secondReadWaits, h_live _, by decide, by decide, _,
    h_third _ _ rfl, ⟨rfl, rfl⟩, .inl rfl, ?_, rfl⟩
  have h_make := show Feed.make (.fresh .plain 1) .standard = _ from rfl
  have h_idle :=
    Run.suspended_of_idle (.inl rfl) h_make (.perform .start secondReadWaits) (h_live _)
    (by decide) (by decide)
  exact h_idle.1 _ (h_third _ _ rfl) _ _ _ _ ⟨rfl, rfl⟩ (.inl rfl)

end Run

end OperationFeed
