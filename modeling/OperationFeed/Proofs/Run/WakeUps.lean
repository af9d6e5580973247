import OperationFeed.Proofs.Run.Idle

/-!
# Who hears of what is appended

Adding an operation may append two entries, a checkpoint that is due and the operation itself, and
the readers are woken once, at the end of the call. The call ends early if the log takes the
checkpoint and then rejects the operation. The checkpoint is in the log all the same, and the
readers that wait for it go on waiting (`Step.AppendsUnheard`). This takes a facade that gives out
numbers out of order.

There is no other way in which something enters the log unheard, for any facade
(`Step.appendsUnheard_of_pending`). `Run.wakes_readers` draws the conclusion: apart from such calls,
whatever is appended wakes every reader, and no reader goes on waiting, or times out, while there is
something for it in the log (`Machine.NoneMissed`).
-/

namespace OperationFeed

namespace Step

/-- Adding an operation fails as the log rejects its number, but the checkpoint that was due is in
the log, and readers go on waiting. -/
structure AppendsUnheard (s : Step) : Prop where
  adds : ∃ op, s.action = .now (.add op) ∧ op.isCheckpoint = false
  answer : ∃ cause, s.answer = .failure (.log cause)
  appended : ∃ e, s.appended = [e] ∧ e.item.isCheckpoint = true
  arrivals : s.after.state.arrivals = s.before.state.arrivals
  pending : s.after.state.arrivals.isPending = true

/-- If something was appended and a notification is pending, the readers were not told. -/
theorem appendsUnheard_of_pending {s : Step} (h_pending : s.after.state.arrivals.isPending = true)
    (h_appended : s.appended ≠ []) : s.AppendsUnheard := by
  cases s.stream_course with
  | same same noCut notAdd => exact absurd (appended_of_not_add notAdd) h_appended
  | metadata request h_action h_after =>
    exact absurd (appended_of_not_add (ne_add_of_metadata h_action)) h_appended
  | truncated handle upTo h_action live h_after =>
    exact absurd (appended_of_not_add (ne_add_of_executor h_action)) h_appended
  | added op result h_action h_answer course =>
    generalize h_after : s.after.state = feed' at course
    have h_log : feed'.log ≠ s.before.state.log := by
      rw [← h_after]
      exact fun h_eq => h_appended (appended_of_log_eq h_eq)
    cases course with
    | refused same why => exact absurd same.log h_log
    | rejectedCheckpoint admits due rejects => exact absurd (by rw [rejects.eq]; rfl) h_log
    | rejected admits prepares rejects =>
      have h_prepared : feed'.log = _ := congrArg Feed.log rejects.eq
      cases prepares with
      | notDue due => exact absurd h_prepared h_log
      | inserted due inserts =>
        -- the checkpoint was appended, and the call has ended there
        rw [Bool.and_eq_true, Bool.not_eq_true'] at due
        have grows : Grows s.before.state.log
            [FeedEntry.of .checkpoint (s.before.state.counted .add).metadata.offered]
            s.after.state.log := by
          rw [h_after, h_prepared]
          exact inserts.grows
        refine ⟨⟨op, h_action, due.1⟩, ⟨_, h_answer⟩, ⟨_, appended_of_grows grows, rfl⟩, ?_,
          h_pending⟩
        rw [h_after, rejects.eq]
        exact inserts.arrivals
    | accepted admits prepares takes =>
      rw [h_after, Feed.woken, WaitSlot.isPending, WaitSlot.waiters_resolve] at h_pending
      cases h_pending

/-- A call that is answered at once is none of the executor's business. -/
theorem executor_of_now {s : Step} {call : FeedCall} (h : s.action = .now call) :
    s.after.executor = s.before.executor := by
  rw [after, h]
  rfl

end Step

/-- No reader misses an operation. -/
structure Machine.NoneMissed (m : FeedMachine) : Prop where
  /-- A reader with something to read has been notified. -/
  notified : ∀ handle reader, (handle, FeedTask.read reader) ∈ m.executor.tasks →
    ∀ e ∈ m.state.log.entries, reader.after < e.number →
      m.state.arrivals.answer? reader.waiter ≠ none
  /-- When no task is due a turn, no reader has anything to read. -/
  settled : m.IsIdle → ∀ handle reader, (handle, FeedTask.read reader) ∈ m.executor.tasks →
    ∀ e ∈ m.state.log.entries, e.number ≤ reader.after
  /-- No reader times out in the next step if it has something to read. -/
  inTime : ∀ handle reader, (handle, FeedTask.read reader) ∈ m.executor.tasks →
    ∀ action limit, Step.Resolves ⟨m, action⟩ handle (.error (.timeout limit)) →
      ∀ e ∈ m.state.log.entries, e.number ≤ reader.after

/-- Readers that have been told of everything miss nothing. -/
theorem Waiting.noneMissed {m : FeedMachine} (h : Waiting True m.state m.executor.tasks)
    (h_sound : m.executor.Sound) : m.NoneMissed := by
  have h_notified : ∀ handle reader, (handle, FeedTask.read reader) ∈ m.executor.tasks →
      m.state.arrivals.answer? reader.waiter = none →
        ∀ e ∈ m.state.log.entries, e.number ≤ reader.after := by
    intro handle reader h_mem pending
    have attached := h.attached_of_pending h_mem pending
    exact (Feed.not_serves.mp (h.unserved trivial handle reader h_mem attached.2)).2
  refine ⟨?_, ?_, ?_⟩
  · intro handle reader h_mem e h_e h_lt pending
    exact UInt64.not_le.mpr h_lt (h_notified handle reader h_mem pending e h_e)
  · rintro ⟨h_queue, h_parked⟩ handle reader h_mem
    apply h_notified handle reader h_mem
    rw [Executor.tasks, h_queue, List.nil_append] at h_mem
    -- a reader with an answer would be due a turn
    have h_ready : FeedTask.isReady m.state m.executor.clock (.read reader) = false :=
      h_parked _ h_mem
    have h_answer := (Bool.or_eq_false_iff.mp h_ready).1
    rwa [Option.isSome_eq_false_iff, Option.isNone_iff_eq_none] at h_answer
  · intro handle reader h_mem action limit resolves
    have h_lt := (h_sound.mayHaveTask _ h_mem).lt
    cases Step.result_origin (s := ⟨m, action⟩) h_sound resolves with
    | ready call feed' h_action h_handle course tasks state =>
      exact absurd (h_handle ▸ h_lt) (Nat.lt_irrefl _)
    | dead dead h_handle result_eq => cases result_eq
    | ended h_action waiting result_eq => cases result_eq
    | finished task h_action live course others =>
      -- the task behind the handle is the reader
      obtain rfl : task = .read reader := Option.some.inj
        ((h_sound.lookup_eq_some.mpr live).symm.trans (h_sound.lookup_eq_some.mpr h_mem))
      generalize (Step.after ⟨m, action⟩).state = feed' at course
      cases course with
      | attributes same changes => cases changes
      | read course =>
        cases course with
        -- a reader times out while it waits, or after it has looked once more
        | expired pending late => exact h_notified handle reader h_mem pending
        | rejoinedExpired answered isOpen serves late => exact (Feed.not_serves.mp serves).2

namespace Run

variable {feed : Feed} {steps : List Step} {m : FeedMachine}

/-- What is known of the readers while the executor is alive. -/
theorem waiting (h_new : feed.IsNew) (run : Run feed steps m) (h_alive : m.executor.alive = true) :
    Waiting (∀ s ∈ steps, s.Tells) m.state m.executor.tasks :=
  .of_told h_new run (run.alive_iff.mp h_alive)

/-- While no notification is pending, every reader has been notified. -/
theorem notified (h_new : feed.IsNew) (run : Run feed steps m)
    (h_pending : m.state.arrivals.isPending = false) {handle : Handle} {reader : Reader}
    (h_mem : (handle, FeedTask.read reader) ∈ m.executor.tasks) :
    m.state.arrivals.answer? reader.waiter ≠ none := by
  have waiting := run.waiting h_new (run.sound.alive_of_mem h_mem)
  have h_waiters : m.state.arrivals.waiters = none := by
    rwa [WaitSlot.isPending, Option.isSome_eq_false_iff, Option.isNone_iff_eq_none] at h_pending
  rw [ne_eq, WaitSlot.answer?_eq_none, Nat.not_le]
  exact waiting.no_waiter h_waiters h_mem

/-- After a step that leaves something new in the log, every reader has been notified, or the step
is one that appends unheard. If there is no such step, no reader misses an operation. -/
theorem wakes_readers {facade : Metadata.Facade} {container : ContainerId} {config : Config}
    (h_make : Feed.make (.fresh facade container) config = .ok feed) (run : Run feed steps m) :
    (∀ s ∈ steps, ∀ e ∈ s.after.state.log.entries, e ∉ s.before.state.log.entries →
      s.AppendsUnheard ∨
        (s.after.state.arrivals.isPending = false ∧
          ∀ handle reader, (handle, FeedTask.read reader) ∈ s.before.executor.tasks →
            s.after.state.arrivals.answer? reader.waiter ≠ none)) ∧
    ((∀ s ∈ steps, ¬ s.AppendsUnheard) → m.NoneMissed) := by
  have h_new := Feed.isNew_of_make h_make
  constructor
  · refine run.forall_mem ?_
    intro before s h_prefix run' e h_e h_new_entry
    have h_appended : s.appended ≠ [] :=
      fun h_nil => h_new_entry (Step.mem_of_appended_nil h_nil e h_e)
    cases h_pending : s.after.state.arrivals.isPending with
    | true => exact .inl (Step.appendsUnheard_of_pending h_pending h_appended)
    | false =>
      refine .inr ⟨rfl, ?_⟩
      intro handle reader h_mem
      -- adding leaves the tasks as they are
      obtain ⟨op, h_action⟩ := Step.exists_add_of_appended h_appended
      rw [← Step.executor_of_now h_action] at h_mem
      exact (run'.step s.action).notified h_new h_pending h_mem
  · intro h_heard
    cases h_alive : m.executor.alive with
    | true =>
      have waiting := (run.waiting h_new h_alive).mono fun _ : True => fun s h_s h_pending =>
        Classical.byContradiction fun h_appended =>
          h_heard s h_s (Step.appendsUnheard_of_pending h_pending h_appended)
      exact waiting.noneMissed run.sound
    | false =>
      have h_none : ∀ handle reader, (handle, FeedTask.read reader) ∉ m.executor.tasks := by
        intro handle reader
        rw [run.sound.idle h_alive]
        exact List.not_mem_nil
      exact ⟨fun _ _ h_mem => absurd h_mem (h_none _ _),
        fun _ _ _ h_mem => absurd h_mem (h_none _ _), fun _ _ h_mem => absurd h_mem (h_none _ _)⟩

/-- A reader waits for what comes after the first operation, and a number far ahead is added. -/
def aheadActions : List FeedAction :=
  [.now (.add (.ofKind .probe)), .later (.read 1 5 ⟨5000000000⟩), .executor (.turn 0),
    .now (.metadata (.forceNext 100)), .now (.add (.ofKind .probe))]

/-- Without checkpoints of the feed's own, the reader is notified. -/
theorem wakes_readers_of_aheadActions : ∃ feed m reader,
    Feed.make (.fresh .recorded 1) .standard = .ok feed ∧
    Run feed (Step.trace ⟨feed, .fresh⟩ aheadActions) m ∧
    (∀ s ∈ Step.trace ⟨feed, .fresh⟩ aheadActions, ¬ s.AppendsUnheard) ∧
    (0, FeedTask.read reader) ∈ m.executor.tasks ∧ reader.after = 1 ∧
    m.state.log.entries.map (·.number) = [1, 100] ∧
    m.state.arrivals.answer? reader.waiter ≠ none := by
  -- while a notification is pending, nothing is appended
  have h_heard : ∀ feed, Feed.make (.fresh .recorded 1) .standard = .ok feed →
      ∀ s ∈ Step.trace ⟨feed, .fresh⟩ aheadActions, ¬ s.AppendsUnheard := by
    intro feed h_make s h_s unheard
    obtain ⟨e, h_appended, -⟩ := unheard.appended
    have h_empty : s.appended.isEmpty = true := by
      refine (?_ : ∀ s ∈ Step.trace ⟨feed, .fresh⟩ aheadActions,
        s.after.state.arrivals.isPending = true → s.appended.isEmpty = true) s h_s unheard.pending
      obtain rfl := Except.ok.inj h_make
      decide
    rw [h_appended] at h_empty
    cases h_empty
  refine ⟨_, _, _, rfl, Run.perform .start aheadActions, h_heard _ rfl, List.mem_singleton.mpr rfl,
    rfl, rfl, ?_⟩
  have missed := (wakes_readers (show Feed.make (.fresh .recorded 1) .standard = _ from rfl)
    (Run.perform .start aheadActions)).2 (h_heard _ rfl)
  exact missed.notified 0 _ (List.mem_singleton.mpr rfl) _
    (List.mem_cons_of_mem _ (List.mem_singleton.mpr rfl)) (by decide)

/-- With a checkpoint due before every operation, the forced number goes to the checkpoint, and the
operation is rejected. The reader is left waiting, with the checkpoint in the log, and times out. -/
theorem reader_misses_checkpoint : ∃ feed m reader,
    Feed.make (.fresh .recorded 1) ⟨some 1, true⟩ = .ok feed ∧
    Run feed (Step.trace ⟨feed, .fresh⟩ aheadActions) m ∧
    (∃ s ∈ Step.trace ⟨feed, .fresh⟩ aheadActions, s.AppendsUnheard) ∧
    m.IsIdle ∧ (0, FeedTask.read reader) ∈ m.executor.tasks ∧ reader.after = 1 ∧
    m.state.arrivals.IsAttached reader.waiter ∧ m.state.log.entries.map (·.number) = [1, 100] ∧
    Step.Resolves ⟨Step.final m [.executor (.tick 5000), .executor .settle], .executor (.turn 0)⟩ 0
      (.error (.timeout ⟨5000000000⟩)) := by
  have h_mem : ∀ m i s, (Step.trace m aheadActions)[i]? = some s → s ∈ Step.trace m aheadActions :=
    fun _ _ _ h => List.mem_of_getElem? h
  refine ⟨_, _, _, rfl, Run.perform .start aheadActions,
    ⟨_, h_mem _ 4 _ rfl, ⟨_, rfl, rfl⟩, ⟨_, rfl⟩, ⟨_, rfl, rfl⟩, rfl, rfl⟩, by decide,
    List.mem_singleton.mpr rfl, rfl, ⟨rfl, rfl⟩, rfl, ⟨rfl, nofun⟩⟩

end Run

end OperationFeed
