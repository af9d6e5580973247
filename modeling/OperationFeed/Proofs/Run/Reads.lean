import OperationFeed.Proofs.Run.Tasks

/-!
# Reads and their readers

A reader that waits is the task of an accepted read, and it keeps what the read was made with
through all its turns: the number after which it reads, the most operations it takes, the deadline
that was fixed when the call was made, and the time that was allowed. Only its place in the slot
changes (`Feed.readerCourse_parked`). So a read is found again in the task behind its handle
(`Run.task_of_read`), and a reader leads back to its read (`Run.read_of_task`).
-/

namespace OperationFeed

/-- The step is an accepted read, whose result comes through a handle. -/
structure Step.AcceptsRead (s : Step) (handle : Handle) (after : SequenceNumber) (max : Nat)
    (timeout : Duration) : Prop where
  action : s.action = .later (.read after max timeout)
  answer : s.answer = .success (.handle handle)

/-- The task is the reader of a read that was made at a given time. -/
def FeedTask.IsReaderOf (task : FeedTask) (now : Nat) (after : SequenceNumber) (max : Nat)
    (timeout : Duration) : Prop :=
  ∃ waiter, task = .read ⟨after, max, deadlineAfter now timeout, timeout, waiter⟩

namespace Step

variable {s : Step} {handle : Handle} {after : SequenceNumber} {max : Nat} {timeout : Duration}

/-- An accepted read has the next handle, and starts what the feed says. -/
theorem AcceptsRead.course (h : s.AcceptsRead handle after max timeout) :
    handle = s.before.executor.handles.length ∧ ∃ launch feed',
      Feed.ReadCourse s.before.executor.clock after max timeout s.before.state (.ok launch) feed' ∧
      Machine.StartCourse { s.before with state := feed' } launch s.after := by
  have course := s.course
  have h_answer := h.answer
  rw [h.action] at course
  generalize s.answer = answer, s.after = m' at course h_answer ⊢
  cases course with
  | refused course => cases h_answer
  | @launched call launch feed' m' course start =>
    -- a refused read is not answered with a handle
    injection h_answer with h_handle
    injection h_handle with h_handle
    refine ⟨h_handle.symm, launch, feed', ?_, start⟩
    cases course with
    | read course => exact course
    | attributes same notRead task => exact absurd rfl (notRead _ _ _)

/-- No step takes handles away. -/
theorem handles_length_le (s : Step) :
    s.before.executor.handles.length ≤ s.after.executor.handles.length := by
  have course := s.course
  generalize s.action = action, s.answer = answer, s.after = m' at course ⊢
  cases course with
  | called course => exact Nat.le_refl _
  | refused course => exact Nat.le_refl _
  | launched course start =>
    cases start <;> exact Nat.le_of_lt (by simp [Executor.newHandle, Executor.enqueue])
  | quiet noTask same => exact Nat.le_of_eq same.length.symm
  | finished live course same =>
    exact Nat.le_of_eq (same.length.trans (Executor.length_resolve ..)).symm
  | parked live course same => exact Nat.le_of_eq same.length.symm
  | ended ended => exact Nat.le_of_eq ended.length.symm

end Step

/-- A reader that goes on waiting keeps what its read was made with. -/
theorem Feed.readerCourse_parked {now : Nat} {reader : Reader} {feed feed' : Feed}
    {task : FeedTask} (course : ReaderCourse now reader feed (.parked task) feed') :
    ∃ waiter, task = .read { reader with waiter } := by
  cases course with
  | waits pending early => exact ⟨reader.waiter, rfl⟩
  | rejoined answered isOpen serves early => exact ⟨_, rfl⟩

/-- What a task parks as is a reader exactly if it is one, and of the same read. -/
theorem Feed.isReaderOf_of_parked {now call : Nat} {task task' : FeedTask} {feed feed' : Feed}
    {after : SequenceNumber} {max : Nat} {timeout : Duration}
    (course : TurnCourse now feed task (.parked task') feed') :
    task'.IsReaderOf call after max timeout ↔ task.IsReaderOf call after max timeout := by
  cases course with
  | read course =>
    obtain ⟨waiter, rfl⟩ := readerCourse_parked course
    constructor
    · rintro ⟨waiter', h_eq⟩
      injection h_eq with h_eq
      -- all fields but the place in the slot are the same
      injection h_eq with h_after h_max h_deadline h_timeout h_waiter
      subst h_after h_max h_timeout
      exact ⟨_, by rw [← h_deadline]⟩
    · rintro ⟨waiter', h_eq⟩
      rw [FeedTask.read.inj h_eq]
      exact ⟨_, rfl⟩
  | drain same => rw [same task' rfl]

namespace Run

variable {feed : Feed} {steps : List Step} {m : FeedMachine} {handle : Handle}

/-- A handle that was resolved exists. -/
theorem lt_of_resolves (run : Run feed steps m) {s : Step} (h_s : s ∈ steps) {result : FeedResult}
    (resolves : s.Resolves handle result) : handle < m.executor.handles.length := by
  induction run with
  | start => cases h_s
  | @step steps m run action ih =>
    rcases List.mem_append.mp h_s with h_s | h_s
    · exact Nat.lt_of_lt_of_le (ih h_s) (Step.handles_length_le ⟨m, action⟩)
    · obtain rfl := List.mem_singleton.mp h_s
      exact (List.getElem?_eq_some_iff.mp resolves.after).1

/-- A reader is the task of an accepted read. -/
theorem read_of_task (run : Run feed steps m) {reader : Reader}
    (h_mem : (handle, FeedTask.read reader) ∈ m.executor.tasks) :
    ∃ s ∈ steps, s.AcceptsRead handle reader.after reader.max reader.timeout ∧
      (FeedTask.read reader).IsReaderOf s.before.executor.clock reader.after reader.max
        reader.timeout := by
  induction run generalizing reader with
  | start => cases h_mem
  | @step steps m run action ih =>
    have h_old : ∀ reader, (handle, FeedTask.read reader) ∈ m.executor.tasks →
        ∃ s ∈ steps ++ [⟨m, action⟩],
          s.AcceptsRead handle reader.after reader.max reader.timeout ∧
          (FeedTask.read reader).IsReaderOf s.before.executor.clock reader.after reader.max
            reader.timeout := by
      intro reader h_mem
      obtain ⟨s, h_s, h⟩ := ih h_mem
      exact ⟨s, List.mem_append_left _ h_s, h⟩
    -- by where the task comes from: an older step, this one, or the turn that parked it
    cases Step.task_origin (s := ⟨m, action⟩) run.sound h_mem with
    | kept live => exact h_old reader live
    | launched call feed' h_action h_handle h_answer course =>
      refine ⟨⟨m, action⟩, List.mem_concat_self, ?_⟩
      cases course with
      | read course =>
        cases course with
        | waits same isOpen serves => exact ⟨⟨h_action, h_answer⟩, _, rfl⟩
      | acknowledge same point task => cases task _ rfl
      | attributes same notRead task => cases task _ rfl
      | drain course => cases course
    | parked task' h_action live course =>
      -- the reader that was parked is the same one, at another place in the slot
      generalize (Step.after ⟨m, action⟩).state = feed' at course
      have h_turn := course
      cases course with
      | read course =>
        obtain ⟨waiter, h_eq⟩ := Feed.readerCourse_parked course
        obtain rfl := FeedTask.read.inj h_eq
        obtain ⟨s, h_s, accepts, h_reader⟩ := h_old _ live
        exact ⟨s, h_s, accepts, (Feed.isReaderOf_of_parked h_turn).mpr h_reader⟩
      | drain same => cases same _ rfl

/-- A task behind the handle of an accepted read is its reader, and there was nothing to read when
the call was made. -/
theorem task_of_read (run : Run feed steps m) {s : Step} (h_s : s ∈ steps)
    {after : SequenceNumber} {max : Nat} {timeout : Duration}
    (accepts : s.AcceptsRead handle after max timeout) :
    handle < m.executor.handles.length ∧ ∀ task, (handle, task) ∈ m.executor.tasks →
      task.IsReaderOf s.before.executor.clock after max timeout ∧
      ¬ s.before.state.Serves after max := by
  induction run with
  | start => cases h_s
  | @step steps m run action ih =>
    have h_length := Step.handles_length_le ⟨m, action⟩
    -- the read is older than the step, or it is made in it
    rcases List.mem_append.mp h_s with h_s | h_s
    · obtain ⟨h_lt, h_task⟩ := ih h_s
      refine ⟨Nat.lt_of_lt_of_le h_lt h_length, ?_⟩
      intro task h_mem
      cases Step.task_origin (s := ⟨m, action⟩) run.sound h_mem with
      | kept live => exact h_task task live
      | launched call feed' h_action h_handle h_answer course =>
        -- a new task has a handle of its own
        rw [h_handle] at h_lt
        exact absurd h_lt (Nat.lt_irrefl _)
      | parked task' h_action live course =>
        obtain ⟨h_reader, serves⟩ := h_task task' live
        exact ⟨(Feed.isReaderOf_of_parked course).mpr h_reader, serves⟩
    · obtain rfl := List.mem_singleton.mp h_s
      obtain ⟨h_handle, launch, feed', course, start⟩ := accepts.course
      -- the handle is new, so no task of before is behind it
      have h_not : ∀ task, (handle, task) ∉ m.executor.tasks := by
        intro task h_mem
        have h_lt := (run.sound.mayHaveTask _ h_mem).lt
        rw [h_handle] at h_lt
        exact Nat.lt_irrefl _ h_lt
      generalize Step.after ⟨m, action⟩ = m' at start h_length ⊢
      cases start with
      | ready result =>
        exact ⟨by rw [h_handle]; simp [Executor.newHandle],
          fun task h_mem => absurd h_mem (h_not task)⟩
      | dead task dead =>
        exact ⟨by rw [h_handle]; simp [Executor.newHandle],
          fun task h_mem => absurd h_mem (h_not task)⟩
      | task task alive =>
        refine ⟨by rw [h_handle]; simp [Executor.newHandle, Executor.enqueue], ?_⟩
        intro task' h_mem
        have h_mem := (Executor.tasks_enqueue _ _ _).mem_iff.mp h_mem
        rcases List.mem_cons.mp h_mem with h_eq | h_mem
        · obtain rfl := (Prod.mk.inj h_eq).2
          cases course with
          | waits same isOpen serves => exact ⟨⟨_, rfl⟩, serves⟩
        · exact absurd h_mem (h_not task')

/-- A read without a result has a reader. -/
theorem reader_of_unresolved (run : Run feed steps m) {s : Step} (h_s : s ∈ steps)
    {after : SequenceNumber} {max : Nat} {timeout : Duration}
    (accepts : s.AcceptsRead handle after max timeout) (h_unresolved : m.IsUnresolved handle) :
    ∃ waiter, (handle, FeedTask.read ⟨after, max, deadlineAfter s.before.executor.clock timeout,
      timeout, waiter⟩) ∈ m.executor.tasks := by
  obtain ⟨task, h_mem⟩ := h_unresolved.exists_task run.sound
  obtain ⟨⟨waiter, rfl⟩, -⟩ := (run.task_of_read h_s accepts).2 task h_mem
  exact ⟨waiter, h_mem⟩

/-- A handle is made before it is resolved, or in the same step. -/
theorem mem_of_resolves {before rest : List Step} {s call : Step}
    (run : Run feed (before ++ s :: rest) m) (h_call : call ∈ before ++ s :: rest)
    (h_handle : handle = call.before.executor.handles.length) {result : FeedResult}
    (resolves : s.Resolves handle result) : call ∈ before ++ [s] := by
  rw [List.append_cons] at run h_call
  rcases List.mem_append.mp h_call with h_call | h_call
  · exact h_call
  · -- a later call has a new handle
    obtain ⟨rest₁, rest₂, rfl⟩ := List.append_of_mem h_call
    rw [← List.append_assoc] at run
    have h_lt := (run.of_append rfl).lt_of_resolves
      (List.mem_append_left _ List.mem_concat_self) resolves
    rw [h_handle] at h_lt
    exact absurd h_lt (Nat.lt_irrefl _)

end Run

/-! ### Results of reads -/

/-- Where the result of a read comes from: from the call itself, from a turn of its reader, or from
the end of all tasks. -/
inductive Step.ReadOrigin (call s : Step) (handle : Handle) (after : SequenceNumber) (max : Nat)
    (timeout : Duration) (result : FeedResult) : Prop
  | called (feed' : Feed) (atOnce : s = call)
      (course : Feed.ReadCourse s.before.executor.clock after max timeout s.before.state
        (.ok (.ready result)) feed')
      (state : s.after.state = feed')
  | turned (waiter : Waiter)
      (live : (handle, FeedTask.read ⟨after, max, deadlineAfter call.before.executor.clock timeout,
        timeout, waiter⟩) ∈ s.before.executor.tasks)
      (course : Feed.ReaderCourse s.before.executor.clock ⟨after, max,
        deadlineAfter call.before.executor.clock timeout, timeout, waiter⟩ s.before.state
        (.finished result) s.after.state)
      (others : ∀ p ∈ s.before.executor.tasks, p.1 ≠ handle → p ∈ s.after.executor.tasks)
  | ended (why : s.before.executor.alive = false ∨ s.action = .executor .shutdown)
      (result_eq : result = .error .cancelled)

/-- A batch of operations is read from the log in the step in which the read is resolved. -/
theorem Step.ReadOrigin.found {call s : Step} {handle : Handle} {after : SequenceNumber} {max : Nat}
    {timeout : Duration} {operations : List Operation}
    (origin : Step.ReadOrigin call s handle after max timeout (.ok (.batch operations))) :
    s.before.state.Serves after max ∧ operations = s.before.state.log.read after max := by
  cases origin with
  | called feed' atOnce course state =>
    cases course with
    | found same isOpen serves => exact ⟨serves, rfl⟩
  | turned waiter live course others =>
    generalize s.after.state = feed' at course
    cases course with
    | found answered isOpen serves => exact ⟨serves, rfl⟩
  | ended why result_eq => cases result_eq

/-- Every result of a read comes from one of these three. -/
theorem Run.read_origin {feed : Feed} {steps : List Step} {m : FeedMachine} {call s : Step}
    {handle : Handle} {after : SequenceNumber} {max : Nat} {timeout : Duration}
    {result : FeedResult} (run : Run feed (steps ++ [s]) m) (h_call : call ∈ steps ++ [s])
    (accepts : call.AcceptsRead handle after max timeout) (resolves : s.Resolves handle result) :
    Step.ReadOrigin call s handle after max timeout result := by
  have run' : Run feed steps s.before := run.of_append rfl
  -- the read is an older one, or it is made in the last step
  have h_old : call ∈ steps ∨ call = s :=
    (List.mem_append.mp h_call).imp_right List.mem_singleton.mp
  -- by where any result comes from; an older read has its handle already
  cases Step.result_origin run'.sound resolves with
  | ready read feed' h_action h_handle course tasks state =>
    rcases h_old with h_call | rfl
    · have h_lt := (run'.task_of_read h_call accepts).1
      rw [h_handle] at h_lt
      exact absurd h_lt (Nat.lt_irrefl _)
    · obtain rfl : read = .read after max timeout :=
        FeedAction.later.inj (h_action.symm.trans accepts.action)
      cases course with
      | read course => exact .called feed' rfl course state
      | attributes same notRead task => exact absurd rfl (notRead _ _ _)
  | dead dead h_handle result_eq => exact .ended (.inl dead) result_eq
  | finished task h_action live course others =>
    rcases h_old with h_call | rfl
    · obtain ⟨⟨waiter, rfl⟩, -⟩ := (run'.task_of_read h_call accepts).2 task live
      generalize h_after : s.after.state = feed' at course
      cases course with
      | attributes same changes => cases changes
      | read course => exact .turned waiter live (h_after ▸ course) others
    · have h_action := h_action.symm.trans accepts.action
      cases h_action
  | ended h_action waiting result_eq => exact .ended (.inr h_action) result_eq

end OperationFeed
