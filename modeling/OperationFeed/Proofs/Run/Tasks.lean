import OperationFeed.Proofs.Run.Basic

/-!
# Where tasks and results come from, and where tasks go

A task that is there after a step was there before, or an accepted call has just started it, or it
is what another task has become in its turn (`Step.TaskOrigin`). A task that is there before a step
stays as it is, unless it has its turn or all tasks are ended (`Step.TaskFate`). In the same way a
result that is there after a step was there before, or it is the result of the task that had its
turn, or of a call that needed no task (`Step.ResultOrigin`).

The log is cut by acknowledgements that have their turn. `Step.truncate_origin` says that each of
them was accepted before.
-/

namespace OperationFeed

namespace Step

/-- Where a task that is there after a step comes from. -/
inductive TaskOrigin (s : Step) (handle : Handle) (task : FeedTask) : Prop
  | kept (live : (handle, task) ∈ s.before.executor.tasks)
  | launched (call : AsyncCall) (feed' : Feed) (action : s.action = .later call)
      (handle_eq : handle = s.before.executor.handles.length)
      (answer : s.answer = .success (.handle handle))
      (course : Feed.AsyncCourse s.before.executor.clock s.before.state call
        (.ok (.task task)) feed')
  | parked (task' : FeedTask) (action : s.action = .executor (.turn handle))
      (live : (handle, task') ∈ s.before.executor.tasks)
      (course : Feed.TurnCourse s.before.executor.clock s.before.state task' (.parked task)
        s.after.state)

/-- A task that is there after a step comes from one of these three. -/
theorem task_origin {s : Step} (h_sound : s.before.executor.Sound) {handle : Handle}
    {task : FeedTask} (h : (handle, task) ∈ s.after.executor.tasks) : s.TaskOrigin handle task := by
  have course := s.course
  generalize h_action : s.action = action, h_answer : s.answer = answer, h_after : s.after = m'
    at course
  rw [h_after] at h
  cases course with
  | called course => exact .kept h
  | refused course => exact .kept h
  | launched course start =>
    cases start with
    | ready result => exact .kept h
    | dead task dead => exact .kept h
    | task task alive =>
      rcases List.mem_cons.mp ((Executor.tasks_enqueue _ _ _).mem_iff.mp h) with h_eq | h
      · obtain ⟨rfl, rfl⟩ := Prod.mk.inj h_eq
        exact .launched _ _ h_action rfl h_answer course
      · exact .kept h
  | quiet noTask same => exact .kept (same.tasks.mem_iff.mp h)
  | finished live course same =>
    rw [same.tasks.mem_iff, Executor.tasks_resolve, Executor.mem_tasks_withdraw] at h
    exact .kept h.1
  | parked live course same =>
    rw [same.tasks.mem_iff, (Executor.tasks_park _ _ _).mem_iff, List.mem_cons,
      Executor.mem_tasks_withdraw] at h
    rcases h with h_eq | h
    · obtain ⟨rfl, rfl⟩ := Prod.mk.inj h_eq
      refine .parked _ h_action (h_sound.lookup_eq_some.mp live) ?_
      rw [h_after]
      exact course
    · exact .kept h.1
  | ended ended =>
    rw [ended.tasks] at h
    cases h

/-- What becomes of a task in a step. -/
inductive TaskFate (s : Step) (handle : Handle) (task : FeedTask) : Prop
  | kept (live : (handle, task) ∈ s.after.executor.tasks)
  | parked (task' : FeedTask) (action : s.action = .executor (.turn handle))
      (live : (handle, task') ∈ s.after.executor.tasks)
      (course : Feed.TurnCourse s.before.executor.clock s.before.state task (.parked task')
        s.after.state)
  | finished (result : FeedResult) (action : s.action = .executor (.turn handle))
      (course : Feed.TurnCourse s.before.executor.clock s.before.state task (.finished result)
        s.after.state)
  | ended (action : s.action = .executor .shutdown)

/-- A task that is there before a step takes one of these four ways. -/
theorem task_fate {s : Step} (h_sound : s.before.executor.Sound) {handle : Handle}
    {task : FeedTask} (h : (handle, task) ∈ s.before.executor.tasks) : s.TaskFate handle task := by
  have course := s.course
  generalize h_action : s.action = action, s.answer = answer, h_after : s.after = m' at course
  -- a turn concerns the task behind its own handle only
  have h_turn : ∀ other task', s.before.executor.tasks.lookup other = some task' →
      (handle, task) ∈ (s.before.executor.withdraw other).tasks ∨
        (other = handle ∧ task' = task) := by
    intro other task' live
    by_cases h_eq : handle = other
    · subst h_eq
      have h_same := (h_sound.lookup_eq_some.mpr h).symm.trans live
      exact .inr ⟨rfl, (Option.some.inj h_same).symm⟩
    · exact .inl ((Executor.mem_tasks_withdraw _).mpr ⟨h, h_eq⟩)
  cases course with
  | called course => exact .kept (by rw [h_after]; exact h)
  | refused course => exact .kept (by rw [h_after]; exact h)
  | launched course start =>
    refine .kept ?_
    rw [h_after]
    cases start with
    | ready result => exact h
    | dead task dead => exact h
    | task task alive =>
      exact (Executor.tasks_enqueue _ _ _).mem_iff.mpr (List.mem_cons_of_mem _ h)
  | quiet noTask same => exact .kept (by rw [h_after]; exact same.tasks.mem_iff.mpr h)
  | finished live course same =>
    rcases h_turn _ _ live with h_kept | ⟨rfl, rfl⟩
    · refine .kept ?_
      rw [h_after, same.tasks.mem_iff, Executor.tasks_resolve]
      exact h_kept
    · exact .finished _ h_action (by rw [h_after]; exact course)
  | parked live course same =>
    rcases h_turn _ _ live with h_kept | ⟨rfl, rfl⟩
    · refine .kept ?_
      rw [h_after, same.tasks.mem_iff, (Executor.tasks_park _ _ _).mem_iff]
      exact List.mem_cons_of_mem _ h_kept
    · refine .parked _ h_action ?_ (by rw [h_after]; exact course)
      rw [h_after, same.tasks.mem_iff, (Executor.tasks_park _ _ _).mem_iff]
      exact List.mem_cons_self ..
  | ended ended => exact .ended h_action

/-- The step resolves a handle that had no result before. -/
structure Resolves (s : Step) (handle : Handle) (result : FeedResult) : Prop where
  after : s.after.executor.handles[handle]? = some (.resolved result)
  before : ∀ result', s.before.executor.handles[handle]? ≠ some (.resolved result')

/-- Where the result that resolves a handle comes from. -/
inductive ResultOrigin (s : Step) (handle : Handle) (result : FeedResult) : Prop
  -- The call had its result at once.
  | ready (call : AsyncCall) (feed' : Feed) (action : s.action = .later call)
      (handle_eq : handle = s.before.executor.handles.length)
      (course : Feed.AsyncCourse s.before.executor.clock s.before.state call (.ok (.ready result))
        feed')
      (tasks : s.after.executor.tasks = s.before.executor.tasks) (state : s.after.state = feed')
  -- The call needed a task, after a shutdown.
  | dead (dead : s.before.executor.alive = false)
      (handle_eq : handle = s.before.executor.handles.length)
      (result_eq : result = .error .cancelled)
  -- A task has finished.
  | finished (task : FeedTask) (action : s.action = .executor (.turn handle))
      (live : (handle, task) ∈ s.before.executor.tasks)
      (course : Feed.TurnCourse s.before.executor.clock s.before.state task (.finished result)
        s.after.state)
      (others : ∀ p ∈ s.before.executor.tasks, p.1 ≠ handle → p ∈ s.after.executor.tasks)
  -- All tasks were ended.
  | ended (action : s.action = .executor .shutdown)
      (waiting : s.before.executor.handles[handle]? = some .waiting)
      (result_eq : result = .error .cancelled)

/-- A result that was not there before a step comes from one of these four. -/
theorem result_origin {s : Step} (h_sound : s.before.executor.Sound) {handle : Handle}
    {result : FeedResult} (h : s.Resolves handle result) : s.ResultOrigin handle result := by
  obtain ⟨h_after, h_before⟩ := h
  have course := s.course
  -- the handle of a call is the only one that a call can resolve
  have h_new : ∀ state : HandleState FeedResult,
      (s.before.executor.handles ++ [state])[handle]? = some (.resolved result) →
        handle = s.before.executor.handles.length ∧ state = .resolved result := by
    intro state h
    rcases Nat.lt_trichotomy handle s.before.executor.handles.length with h_lt | h_eq | h_gt
    · rw [List.getElem?_append_left h_lt] at h
      exact absurd h (h_before result)
    · rw [h_eq, List.getElem?_concat_length] at h
      exact ⟨h_eq, Option.some.inj h⟩
    · rw [List.getElem?_eq_none (by rw [List.length_append]; exact h_gt)] at h
      cases h
  generalize h_action : s.action = action, h_answer : s.answer = answer, h_m : s.after = m'
    at course
  rw [h_m] at h_after
  cases course with
  | called course => exact absurd h_after (h_before result)
  | refused course => exact absurd h_after (h_before result)
  | launched course start =>
    cases start with
    | ready result' =>
      obtain ⟨h_eq, h_result⟩ := h_new _ h_after
      obtain rfl := HandleState.resolved.inj h_result
      exact .ready _ _ h_action h_eq course (by rw [h_m]; rfl) (by rw [h_m])
    | task task alive => cases (h_new _ h_after).2
    | dead task dead =>
      obtain ⟨h_eq, h_result⟩ := h_new _ h_after
      exact .dead dead h_eq (HandleState.resolved.inj h_result).symm
  | quiet noTask same => exact absurd (same.resolved _ _ h_after) (h_before result)
  | @finished other task result' feed' executor live course same =>
    have h_resolved := same.resolved _ _ h_after
    -- the turn resolves its own handle, and no other
    rcases (s.before.executor.withdraw other).handles_resolve other result' handle with
      h_same | ⟨rfl, h_wait, h_res⟩
    · rw [h_same] at h_resolved
      exact absurd h_resolved (h_before result)
    · obtain rfl := HandleState.resolved.inj (Option.some.inj (h_res.symm.trans h_resolved))
      refine .finished task h_action (h_sound.lookup_eq_some.mp live) ?_ ?_
      · rw [h_m]
        exact course
      · intro p h_mem h_ne
        rw [h_m, same.tasks.mem_iff, Executor.tasks_resolve, Executor.mem_tasks_withdraw]
        exact ⟨h_mem, h_ne⟩
  | parked live course same => exact absurd (same.resolved _ _ h_after) (h_before result)
  | ended ended =>
    rcases ended.resolved _ _ h_after with h_res | ⟨h_wait, h_eq⟩
    · exact absurd h_res (h_before result)
    · exact .ended h_action h_wait h_eq

/-! ### Acknowledgements -/

/-- The step is an accepted acknowledgement. -/
structure AcceptsAcknowledge (s : Step) (upTo : SequenceNumber) : Prop where
  action : s.action = .later (.acknowledge upTo)
  answer : ∃ handle, s.answer = .success (.handle handle)

/-- An acknowledgement that waits for its turn has been accepted, at a truncation point. -/
theorem truncate_origin {s : Step} (h_sound : s.before.executor.Sound) {handle : Handle}
    {upTo : SequenceNumber} (h : (handle, FeedTask.truncate upTo) ∈ s.after.executor.tasks) :
    (handle, FeedTask.truncate upTo) ∈ s.before.executor.tasks ∨
      (s.AcceptsAcknowledge upTo ∧ s.before.state.metadata.store.isPoint upTo = true) := by
  cases task_origin h_sound h with
  | kept live => exact .inl live
  | launched call feed' h_action h_handle h_answer course =>
    cases course with
    | read course => cases course
    | acknowledge same point task =>
      cases task _ rfl
      exact .inr ⟨⟨h_action, handle, h_answer⟩, point _ rfl⟩
    | attributes same notRead task => cases task _ rfl
    | drain course => cases course
  | parked task' h_action live course =>
    -- no task becomes an acknowledgement
    generalize s.after.state = feed' at course
    cases course with
    | read course => cases course
    | drain same => cases same _ rfl

end Step

end OperationFeed
