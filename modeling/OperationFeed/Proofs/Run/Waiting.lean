import OperationFeed.Proofs.Run.Allocation
import OperationFeed.Proofs.Run.History

/-!
# Waiting readers

Readers are woken by a notification and come back to the slot for the next one, while operations are
added, cut off and read by others. `Waiting` is what stays true of the slot and the tasks through
all this:

* the pending notification counts the readers that wait for it, and there is none without a reader;
* a reader whose notification is the pending one has nothing to read;
* the slot of an open feed has only ever been completed, and a closed feed's slot is empty.

An operation that enters the log must not leave a pending notification behind: `Feed.add` resolves
it, but not if the log has taken an inserted checkpoint and then rejects the operation itself. That
readers have nothing to read is therefore claimed only as long as every step tells them of what it
appends (`Step.Tells`), which is the case while the counter does not start over (`Feed.OrderlyAdd`).
The executor must not be shut down at all, as its readers would go away without their notification
being released.
-/

namespace OperationFeed

/-- The task is a reader that waits for the notification with a given number. -/
def FeedTask.waitsFor (generation : Nat) : FeedTask → Bool
  | .read reader => reader.waiter.generation == generation
  | _ => false

/-- A task that changes attributes is no reader. -/
theorem FeedTask.ne_read_of_changesAttributes {task : FeedTask} (h : task.changesAttributes = true)
    (reader : Reader) : task ≠ .read reader := by
  rintro rfl
  cases h

/-- The tasks once a call has started what it starts. -/
def startedTasks (result : Except FeedError FeedLaunch) (handle : Handle)
    (tasks : List (Handle × FeedTask)) : List (Handle × FeedTask) :=
  match result with
  | .ok (.task task) => (handle, task) :: tasks
  | _ => tasks

/-- The tasks once one that stood beside them has had its turn. -/
def remainingTasks (turn : FeedTurn) (handle : Handle) (tasks : List (Handle × FeedTask)) :
    List (Handle × FeedTask) :=
  match turn with
  | .finished _ => tasks
  | .parked task => (handle, task) :: tasks

/-- How many tasks wait for the notification with a given number. -/
def waiterCount (tasks : List (Handle × FeedTask)) (generation : Nat) : Nat :=
  tasks.countP (fun p => p.2.waitsFor generation)

/-- The step tells the readers of what it appends: if a notification is pending after it, there is
nothing to tell. -/
def Step.Tells (s : Step) : Prop := s.after.state.arrivals.isPending = true → s.appended = []

/-- The slot of a feed and the readers among its tasks. What the log has for readers is known if
they were told of everything, which is the case if `small`. -/
structure Waiting (small : Prop) (feed : Feed) (tasks : List (Handle × FeedTask)) : Prop where
  /-- Every waiting reader is counted once. -/
  counted : waiterCount tasks feed.arrivals.past.length = feed.arrivals.waiterCount
  /-- A notification that nobody waits for is not pending. -/
  notAbandoned : feed.arrivals.waiters ≠ some 0
  /-- Readers wait for the pending notification, or for one that was resolved. -/
  generation_le : ∀ handle reader, (handle, FeedTask.read reader) ∈ tasks →
    reader.waiter.generation ≤ feed.arrivals.past.length
  /-- Who waits for the pending notification has nothing to read. -/
  unserved : small → ∀ handle reader, (handle, FeedTask.read reader) ∈ tasks →
    reader.waiter.generation = feed.arrivals.past.length → ¬ feed.Serves reader.after reader.max
  /-- Nobody waits for a closed feed. -/
  closed : feed.isClosed = true → feed.arrivals.waiters = none
  /-- An open feed has cancelled nobody. -/
  completed : feed.isClosed = false → ∀ outcome ∈ feed.arrivals.past, outcome = .completed

namespace Waiting

variable {small small' : Prop} {feed feed' : Feed} {tasks tasks' : List (Handle × FeedTask)}

/-- A new feed has no readers and an empty slot. -/
theorem initial (h : feed.IsNew) : Waiting small feed [] := by
  have h_arrivals : feed.arrivals = ⟨[], none⟩ := h.arrivals
  refine ⟨?_, ?_, nofun, fun _ => nofun, ?_, ?_⟩
  · rw [h_arrivals]
    rfl
  · rw [h_arrivals]
    nofun
  · rw [h_arrivals]
    exact fun _ => rfl
  · rw [h_arrivals]
    exact fun _ => nofun

/-- The order of the tasks does not matter. -/
theorem perm (h : Waiting small feed tasks) (h_perm : tasks'.Perm tasks) :
    Waiting small feed tasks' where
  counted := (h_perm.countP_eq _).trans h.counted
  notAbandoned := h.notAbandoned
  generation_le handle reader h_mem := h.generation_le handle reader (h_perm.mem_iff.mp h_mem)
  unserved h_small handle reader h_mem :=
    h.unserved h_small handle reader (h_perm.mem_iff.mp h_mem)
  closed := h.closed
  completed := h.completed

/-- Less is claimed of a longer run. -/
theorem mono (h : Waiting small feed tasks) (h_small : small' → small) :
    Waiting small' feed tasks :=
  { h with unserved := fun h_small' => h.unserved (h_small h_small') }

/-- Without a pending notification, no reader waits for one. -/
theorem no_waiter (h : Waiting small feed tasks) (h_none : feed.arrivals.waiters = none)
    {handle : Handle} {reader : Reader} (h_mem : (handle, FeedTask.read reader) ∈ tasks) :
    reader.waiter.generation < feed.arrivals.past.length := by
  apply Nat.lt_of_le_of_ne (h.generation_le handle reader h_mem)
  intro h_eq
  -- a reader for it would have been counted
  have h_counted := h.counted
  rw [WaitSlot.waiterCount, h_none, Option.getD_none, waiterCount, List.countP_eq_zero] at h_counted
  exact h_counted _ h_mem (by simp [FeedTask.waitsFor, h_eq])

/-- A notification that a reader waits for is pending. -/
theorem isPending_of_waits (h : Waiting small feed tasks) {handle : Handle} {reader : Reader}
    (h_mem : (handle, FeedTask.read reader) ∈ tasks)
    (h_eq : reader.waiter.generation = feed.arrivals.past.length) :
    feed.arrivals.isPending = true := by
  cases h_waiters : feed.arrivals.waiters with
  | some n => rw [WaitSlot.isPending, h_waiters, Option.isSome_some]
  | none => exact absurd h_eq (Nat.ne_of_lt (h.no_waiter h_waiters h_mem))

/-- The feed changes in other respects, and its log gains nothing while a
notification is pending. -/
theorem of_subset (h : Waiting small feed tasks) (h_arrivals : feed'.arrivals = feed.arrivals)
    (h_closed : feed'.isClosed = feed.isClosed)
    (h_log : small → feed.arrivals.isPending = true →
      ∀ e ∈ feed'.log.entries, e ∈ feed.log.entries) : Waiting small feed' tasks where
  counted := by rw [h_arrivals]; exact h.counted
  notAbandoned := by rw [h_arrivals]; exact h.notAbandoned
  generation_le := by rw [h_arrivals]; exact h.generation_le
  unserved h_small handle reader h_mem h_pending h_serves := by
    rw [h_arrivals] at h_pending
    -- if a reader waits for the notification, it is pending, and the log has gained nothing
    have h_log := h_log h_small (h.isPending_of_waits h_mem h_pending)
    apply h.unserved h_small handle reader h_mem h_pending
    exact h_serves.imp_right fun ⟨e, h_e, h_lt⟩ => ⟨e, h_log e h_e, h_lt⟩
  closed := by rw [h_arrivals, h_closed]; exact h.closed
  completed := by rw [h_arrivals, h_closed]; exact h.completed

/-- The slot, the log and whether the feed is open are part of the core. -/
theorem sameCore (h : Waiting small feed tasks) (same : feed.SameCore feed') :
    Waiting small feed' tasks :=
  h.of_subset same.arrivals same.isClosed (by rw [same.log]; exact fun _ _ _ h_mem => h_mem)

/-- A task that is no reader, or one whose notification was resolved, comes and goes freely. -/
theorem cons_iff {handle : Handle} {task : FeedTask}
    (h_task : ∀ reader, task = .read reader →
      reader.waiter.generation < feed.arrivals.past.length) :
    Waiting small feed ((handle, task) :: tasks) ↔ Waiting small feed tasks := by
  have h_count : waiterCount ((handle, task) :: tasks) feed.arrivals.past.length =
      waiterCount tasks feed.arrivals.past.length := by
    apply List.countP_cons_of_neg
    intro h_waits
    cases task with
    | read reader => exact Nat.ne_of_lt (h_task reader rfl) (beq_iff_eq.mp h_waits)
    | _ => cases h_waits
  constructor
  · intro h
    refine ⟨h_count ▸ h.counted, h.notAbandoned, ?_, ?_, h.closed, h.completed⟩
    · intro other reader h_mem
      exact h.generation_le other reader (List.mem_cons_of_mem _ h_mem)
    · intro h_small other reader h_mem
      exact h.unserved h_small other reader (List.mem_cons_of_mem _ h_mem)
  · intro h
    -- what is asked of readers is asked of the task in vain, as it does not wait
    refine ⟨h_count.trans h.counted, h.notAbandoned, ?_, ?_, h.closed, h.completed⟩
    · intro other reader h_mem
      rcases List.mem_cons.mp h_mem with h_eq | h_mem
      · exact Nat.le_of_lt (h_task reader (Prod.mk.inj h_eq).2.symm)
      · exact h.generation_le other reader h_mem
    · intro h_small other reader h_mem h_pending
      rcases List.mem_cons.mp h_mem with h_eq | h_mem
      · exact absurd h_pending (Nat.ne_of_lt (h_task reader (Prod.mk.inj h_eq).2.symm))
      · exact h.unserved h_small other reader h_mem h_pending

/-- A task that is no reader comes and goes freely. -/
theorem cons_iff_of_not_read {handle : Handle} {task : FeedTask}
    (h_task : ∀ reader, task ≠ .read reader) :
    Waiting small feed ((handle, task) :: tasks) ↔ Waiting small feed tasks :=
  cons_iff fun reader h_eq => absurd h_eq (h_task reader)

/-! ### The slot -/

/-- A reader that finds nothing joins the slot. -/
theorem join (h : Waiting small feed tasks) (handle : Handle) {reader : Reader}
    (isOpen : feed.isClosed = false) (h_waiter : reader.waiter = feed.arrivals.join.1)
    (serves : ¬ feed.Serves reader.after reader.max) :
    Waiting small { feed with arrivals := feed.arrivals.join.2 }
      ((handle, .read reader) :: tasks) := by
  have h_generation : reader.waiter.generation = feed.arrivals.past.length := by rw [h_waiter]; rfl
  refine ⟨?_, ?_, ?_, ?_, ?_, h.completed⟩
  -- the new reader waits for the pending notification, and the slot counts one more
  · change waiterCount _ feed.arrivals.past.length = feed.arrivals.waiterCount + 1
    rw [waiterCount, List.countP_cons_of_pos (by simp [FeedTask.waitsFor, h_generation])]
    exact congrArg (· + 1) h.counted
  · intro h_zero
    exact Nat.succ_ne_zero _ (Option.some.inj h_zero)
  · intro other reader' h_mem
    rcases List.mem_cons.mp h_mem with h_eq | h_mem
    · obtain rfl : reader' = reader := FeedTask.read.inj (Prod.mk.inj h_eq).2
      exact Nat.le_of_eq h_generation
    · exact h.generation_le other reader' h_mem
  · intro h_small other reader' h_mem h_pending
    rcases List.mem_cons.mp h_mem with h_eq | h_mem
    · obtain rfl : reader' = reader := FeedTask.read.inj (Prod.mk.inj h_eq).2
      -- the new reader has nothing to read, or it would not have joined
      exact serves
    · exact h.unserved h_small other reader' h_mem h_pending
  · intro h_closed
    change feed.isClosed = true at h_closed
    rw [isOpen] at h_closed
    cases h_closed

/-- All readers are behind the slot's past once its notification is resolved. -/
theorem generation_lt_of_resolve (h : Waiting small feed tasks) (outcome : WaitOutcome)
    {handle : Handle} {reader : Reader} (h_mem : (handle, FeedTask.read reader) ∈ tasks) :
    reader.waiter.generation < (feed.arrivals.resolve outcome).2.past.length := by
  cases h_waiters : feed.arrivals.waiters with
  | none =>
    rw [WaitSlot.resolve_of_waiters_none h_waiters]
    exact h.no_waiter h_waiters h_mem
  | some n =>
    rw [WaitSlot.resolve_of_waiters_some h_waiters, List.length_append]
    exact Nat.lt_succ_of_le (h.generation_le handle reader h_mem)

/-- The notification is resolved, whatever happens to the log. -/
theorem resolve (h : Waiting small feed tasks) (outcome : WaitOutcome)
    (h_arrivals : feed'.arrivals = (feed.arrivals.resolve outcome).2)
    (h_completed : feed'.isClosed = false → ∀ o ∈ feed'.arrivals.past, o = .completed) :
    Waiting small feed' tasks := by
  have h_lt : ∀ handle reader, (handle, FeedTask.read reader) ∈ tasks →
      reader.waiter.generation < feed'.arrivals.past.length := by
    intro handle reader h_mem
    rw [h_arrivals]
    exact h.generation_lt_of_resolve outcome h_mem
  have h_waiters : feed'.arrivals.waiters = none := by rw [h_arrivals, WaitSlot.waiters_resolve]
  refine ⟨?_, ?_, ?_, ?_, fun _ => h_waiters, h_completed⟩
  · rw [WaitSlot.waiterCount, h_waiters, Option.getD_none, waiterCount, List.countP_eq_zero]
    intro p h_mem h_waits
    obtain ⟨handle, task⟩ := p
    cases task with
    | read reader => exact Nat.ne_of_lt (h_lt handle reader h_mem) (beq_iff_eq.mp h_waits)
    | _ => cases h_waits
  · rw [h_waiters]
    nofun
  · intro handle reader h_mem
    exact Nat.le_of_lt (h_lt handle reader h_mem)
  -- nobody waits for the pending notification, as none is pending
  · intro _ handle reader h_mem h_eq
    exact absurd h_eq (Nat.ne_of_lt (h_lt handle reader h_mem))

/-- The past of a slot whose notification is completed. -/
theorem completed_of_resolve (h : Waiting small feed tasks) (isOpen : feed.isClosed = false) :
    ∀ o ∈ (feed.arrivals.resolve .completed).2.past, o = .completed := by
  cases h_waiters : feed.arrivals.waiters with
  | none =>
    rw [WaitSlot.resolve_of_waiters_none h_waiters]
    exact h.completed isOpen
  | some n =>
    rw [WaitSlot.resolve_of_waiters_some h_waiters]
    intro o h_mem
    rcases List.mem_append.mp h_mem with h_mem | h_mem
    · exact h.completed isOpen o h_mem
    · exact List.mem_singleton.mp h_mem

/-- A reader whose notification is pending goes away. -/
theorem leave {handle : Handle} {reader : Reader}
    (h : Waiting small feed ((handle, .read reader) :: tasks))
    (pending : feed.arrivals.answer? reader.waiter = none) :
    Waiting small { feed with arrivals := (feed.arrivals.leave reader.waiter).releaseIfAbandoned.2 }
      tasks := by
  have h_generation : reader.waiter.generation = feed.arrivals.past.length :=
    Nat.le_antisymm (h.generation_le handle reader (List.mem_cons_self ..))
      (WaitSlot.answer?_eq_none.mp pending)
  -- the reader is one of those that the pending notification counts
  have h_counted : feed.arrivals.waiterCount =
      waiterCount tasks feed.arrivals.past.length + 1 := by
    rw [← h.counted, waiterCount,
      List.countP_cons_of_pos (by simp [FeedTask.waitsFor, h_generation]), waiterCount]
  have h_some : feed.arrivals.waiters =
      some (waiterCount tasks feed.arrivals.past.length + 1) := by
    rw [WaitSlot.waiterCount] at h_counted
    cases h_waiters : feed.arrivals.waiters with
    | none => rw [h_waiters] at h_counted; cases h_counted
    | some n => rw [h_waiters] at h_counted; exact congrArg some h_counted
  -- neither leaving nor releasing resolves anything
  have h_past : (feed.arrivals.leave reader.waiter).releaseIfAbandoned.2.past =
      feed.arrivals.past := by
    rw [WaitSlot.past_releaseIfAbandoned, WaitSlot.past_leave]
  have h_waiters := WaitSlot.waiters_release_leave h_some h_generation
  generalize (feed.arrivals.leave reader.waiter).releaseIfAbandoned.2 = slot at h_past h_waiters
  refine ⟨?_, ?_, ?_, ?_, ?_, ?_⟩
  · change waiterCount tasks slot.past.length = slot.waiters.getD 0
    rw [h_past, h_waiters]
    split
    · next h_zero => rw [h_zero, Option.getD_none]
    · rfl
  · change slot.waiters ≠ some 0
    rw [h_waiters]
    split
    · nofun
    · next h_pos => exact fun h_eq => h_pos (Option.some.inj h_eq)
  · change ∀ handle reader, _ → _ ≤ slot.past.length
    rw [h_past]
    intro other reader' h_mem
    exact h.generation_le other reader' (List.mem_cons_of_mem _ h_mem)
  · change small → ∀ handle reader, _ → _ = slot.past.length → _
    rw [h_past]
    intro h_small other reader' h_mem
    exact h.unserved h_small other reader' (List.mem_cons_of_mem _ h_mem)
  · intro h_closed
    rw [h.closed h_closed] at h_some
    cases h_some
  · change _ → ∀ o ∈ slot.past, _
    rw [h_past]
    exact h.completed

/-! ### Steps -/

/-- Adding tells the readers, or they have to be told of nothing. -/
theorem addCourse (h : Waiting small feed tasks) {op : Operation}
    {result : Except FeedError SequenceNumber} (course : Feed.AddCourse op feed result feed')
    (h_log : small → feed'.arrivals.isPending = true →
      ∀ e ∈ feed'.log.entries, e ∈ feed.log.entries) : Waiting small feed' tasks := by
  cases course with
  | refused same why => exact h.sameCore same
  | rejectedCheckpoint admits due rejects =>
    rw [rejects.eq]
    exact h.of_subset rfl rfl fun _ _ _ h_mem => h_mem
  | rejected admits prepares rejects =>
    -- an inserted checkpoint does not wake anybody by itself
    have h_arrivals : feed'.arrivals = feed.arrivals := by
      rw [rejects.eq]
      exact prepares.arrivals
    refine h.of_subset h_arrivals ?_ ?_
    · rw [rejects.eq]
      exact prepares.isClosed
    · intro h_small h_pending
      exact h_log h_small (by rw [h_arrivals]; exact h_pending)
  | @accepted feed₁ feed₂ admits prepares takes =>
    have h_arrivals : feed₂.woken.arrivals = (feed.arrivals.resolve .completed).2 := by
      rw [Feed.woken, takes.arrivals, prepares.arrivals]
      rfl
    -- an accepted operation wakes all readers
    apply h.resolve .completed h_arrivals
    intro _
    rw [h_arrivals]
    exact h.completed_of_resolve admits.isOpen

/-- Closing cancels all readers, unless the feed was closed already. -/
theorem close (h : Waiting small feed tasks) : Waiting small (Feed.close.effect feed).2 tasks := by
  rw [Feed.effect_close]
  split
  · exact h
  · exact h.resolve .cancelled rfl nofun

/-- A call whose result comes later may start a reader, which joins the slot. -/
theorem asyncCourse (h : Waiting small feed tasks) {now : Nat} {call : AsyncCall}
    {result : Except FeedError FeedLaunch} (course : Feed.AsyncCourse now feed call result feed')
    (handle : Handle) : Waiting small feed' (startedTasks result handle tasks) := by
  -- a task that is no reader makes no difference
  have h_other : (∀ task, result = .ok (.task task) → ∀ reader, task ≠ .read reader) →
      Waiting small feed' tasks → Waiting small feed' (startedTasks result handle tasks) := by
    intro h_task h'
    rcases result with e | result | task
    · exact h'
    · exact h'
    · exact (cons_iff_of_not_read (h_task task rfl)).mpr h'
  cases course with
  | read course =>
    cases course with
    | refused same => exact h.sameCore same
    | struck same strikes => exact h.sameCore same
    | found same isOpen serves => exact h.sameCore same
    | @waits feed' same isOpen serves =>
      have h' := h.sameCore same
      -- the faults that are counted before joining change neither the slot nor the log
      rw [← same.arrivals]
      apply h'.join handle (same.isClosed.trans isOpen) rfl
      intro h_serves
      apply serves
      rwa [Feed.Serves, same.log] at h_serves
  | acknowledge same point task =>
    refine h_other ?_ (h.sameCore same)
    intro launched h_eq
    rw [task launched h_eq]
    rintro reader ⟨⟩
  | attributes same notRead task =>
    refine h_other ?_ (h.sameCore same)
    intro launched h_eq
    exact FeedTask.ne_read_of_changesAttributes (task launched h_eq)
  | drain course =>
    cases course with
    | refused => exact h
    | drained => exact h
    | waits =>
      rw [startedTasks, cons_iff_of_not_read (by rintro reader ⟨⟩)]
      exact h.of_subset rfl rfl fun _ _ _ h_mem => h_mem

/-- A turn of a reader: it is over, or it waits again. -/
theorem readerCourse {now : Nat} {handle : Handle} {reader : Reader} {turn : FeedTurn}
    (h : Waiting small feed ((handle, .read reader) :: tasks))
    (course : Feed.ReaderCourse now reader feed turn feed') :
    Waiting small feed' (remainingTasks turn handle tasks) := by
  -- a reader with an answer does not wait for the pending notification
  have h_over : ∀ outcome, feed.arrivals.answer? reader.waiter = some outcome →
      Waiting small feed tasks := by
    intro outcome answered
    refine (cons_iff ?_).mp h
    intro reader' h_eq
    rw [← FeedTask.read.inj h_eq]
    exact (List.getElem?_eq_some_iff.mp answered).1
  cases course with
  | waits pending early => exact h
  | expired pending late => exact h.leave pending
  | cancelled answered => exact h_over _ answered
  | closed answered isClosed => exact h_over _ answered
  | found answered isOpen serves => exact h_over _ answered
  | rejoined answered isOpen serves early =>
    exact (h_over _ answered).join handle isOpen rfl serves
  | rejoinedExpired answered isOpen serves late =>
    have h' := h_over _ answered
    -- who joins and leaves at once leaves the slot as it was
    rw [WaitSlot.release_leave_join h'.notAbandoned]
    exact h'

/-- A turn of any task: the task is over, or it waits again. -/
theorem turnCourse {now : Nat} {handle : Handle} {task : FeedTask} {turn : FeedTurn}
    (h : Waiting small feed ((handle, task) :: tasks))
    (course : Feed.TurnCourse now feed task turn feed') :
    Waiting small feed' (remainingTasks turn handle tasks) := by
  cases course with
  | truncated upTo =>
    have h' : Waiting small feed tasks := (cons_iff_of_not_read (by nofun)).mp h
    refine h'.of_subset ?_ ?_ ?_
    · rw [Feed.effect_truncate]
      split <;> exact Feed.cut_arrivals upTo feed
    · rw [Feed.effect_truncate]
      split <;> exact Feed.cut_isClosed upTo feed
    · -- cutting leaves some of the entries
      intro _ _ e h_mem
      rw [Feed.log_truncate] at h_mem
      split at h_mem
      · rw [Log.entries_truncate] at h_mem
        exact (List.mem_filter.mp h_mem).1
      · exact h_mem
  | attributes same changes =>
    have h_task := FeedTask.ne_read_of_changesAttributes changes
    exact ((cons_iff_of_not_read h_task).mp h).sameCore same
  | read course => exact h.readerCourse course
  | drain same =>
    cases turn with
    | finished result => exact (cons_iff_of_not_read (by nofun)).mp h
    | parked task' =>
      rw [same task' rfl]
      exact h

/-- Every step but a shutdown keeps what is known of the readers. -/
theorem step {s : Step} (h : Waiting small s.before.state s.before.executor.tasks)
    (h_sound : s.before.executor.Sound) (h_alive : s.before.executor.alive = true)
    (h_live : s.action ≠ .executor .shutdown)
    (h_told : small → s.Tells) : Waiting small s.after.state s.after.executor.tasks := by
  have course := s.course
  have h_log : small → s.after.state.arrivals.isPending = true →
      ∀ e ∈ s.after.state.log.entries, e ∈ s.before.state.log.entries :=
    fun h_small h_pending => Step.mem_of_appended_nil (h_told h_small h_pending)
  generalize s.action = action, s.answer = answer, s.after = m' at course h_live h_log ⊢
  cases course with
  | called course =>
    cases course with
    | outside same notAdd => exact h.sameCore same
    | metadata request => exact h.of_subset rfl rfl fun _ _ _ h_mem => h_mem
    | added course => exact h.addCourse course h_log
    | toggled effective => exact h.of_subset rfl rfl fun _ _ _ h_mem => h_mem
    | closed => exact h.close
  -- nothing is started, so the handle does not matter
  | refused course => exact h.asyncCourse course 0
  | launched course start =>
    have h' := h.asyncCourse course s.before.executor.handles.length
    cases start with
    | ready result => exact h'
    | task task alive => exact h'.perm (Executor.tasks_enqueue _ _ _)
    | dead task dead =>
      change s.before.executor.alive = false at dead
      rw [h_alive] at dead
      cases dead
  | quiet noTask same => exact h.perm same.tasks
  | finished live course same =>
    -- the task whose turn it is stands beside the others
    have h' := (h.perm (h_sound.perm_withdraw live).symm).turnCourse course
    have h_tasks := same.tasks
    rw [Executor.tasks_resolve] at h_tasks
    exact Waiting.perm h' h_tasks
  | parked live course same =>
    have h' := (h.perm (h_sound.perm_withdraw live).symm).turnCourse course
    exact Waiting.perm h' (same.tasks.trans (Executor.tasks_park _ _ _))
  | ended ended => exact absurd rfl h_live

/-- What is known of the readers in every run without a shutdown. -/
theorem of_told {steps : List Step} {m : FeedMachine} (h_new : feed.IsNew) (run : Run feed steps m)
    (h_live : ∀ s ∈ steps, s.action ≠ .executor .shutdown) :
    Waiting (∀ s ∈ steps, s.Tells) m.state m.executor.tasks := by
  induction run with
  | start => exact .initial h_new
  | @step steps m run action ih =>
    have h_alive := fun s h_mem => h_live s (List.mem_append_left _ h_mem)
    have h : Waiting (∀ s ∈ steps ++ [⟨m, action⟩], s.Tells) m.state m.executor.tasks :=
      (ih h_alive).mono fun h_told s h_mem => h_told s (List.mem_append_left _ h_mem)
    have h_last := h_live _ List.mem_concat_self
    apply Waiting.step (s := ⟨m, action⟩) h run.sound (run.alive h_alive) h_last
    exact fun h_told => h_told _ List.mem_concat_self

end Waiting

/-- Adding that the log does not reject tells the readers. -/
theorem Step.tells_of_orderly {s : Step}
    (h_orderly : ∀ op result, Feed.AddCourse op s.before.state result s.after.state →
      Feed.OrderlyAdd op s.before.state result s.after.state) : s.Tells := by
  intro h_pending
  cases s.stream_course with
  | same same noCut notAdd => exact appended_of_not_add notAdd
  | metadata request h_action h_after => exact appended_of_not_add (ne_add_of_metadata h_action)
  | truncated handle upTo h_action live h_after =>
    exact appended_of_not_add (ne_add_of_executor h_action)
  | added op result h_action h_answer course =>
    have orderly := h_orderly op result course
    generalize h_after : s.after.state = feed' at orderly h_pending
    cases orderly with
    | refused same why =>
      apply appended_of_log_eq
      rw [h_after]
      -- a refused operation leaves the log as it is
      exact same.log
    | @accepted feed₁ feed₂ admits prepares takes =>
      -- the notification has been resolved
      rw [Feed.woken, WaitSlot.isPending, WaitSlot.waiters_resolve] at h_pending
      cases h_pending

/-- While the counter does not start over, the readers are told of everything. -/
theorem Waiting.of_run {feed : Feed} {steps : List Step} {m : FeedMachine} (h_new : feed.IsNew)
    (h_plain : feed.metadata.record = none) (run : Run feed steps m)
    (h_live : ∀ s ∈ steps, s.action ≠ .executor .shutdown) :
    Waiting (allocated steps < UInt64.size) m.state m.executor.tasks := by
  refine (of_told h_new run h_live).mono fun h_few => ?_
  refine run.forall_mem ?_
  intro before s h_prefix run'
  obtain ⟨m, action⟩ := s
  have h_few := Nat.lt_of_le_of_lt (allocated_mono h_prefix) h_few
  have allocation := Allocation.of_run h_new h_plain run'
    (Nat.lt_of_le_of_lt (allocated_mono (List.prefix_append _ _)) h_few)
  apply Step.tells_of_orderly
  intro op result course
  exact course.orderly allocation.inStep (allocation.room h_few)

end OperationFeed
