import OperationFeed.Executor.Basic

/-!
# Tasks and handles

The tasks of an executor are those due a turn and those that wait (`Executor.tasks`). Two relations
say how tasks and handles move along:

* `Executor.SameTasks`, between two executors: the tasks are the same, and there is no new result;
* `Executor.Sound`, of one executor: every task has a handle of its own, which waits for the result
  or was dropped, and every handle that waits has a task.
-/

namespace OperationFeed

namespace Executor

variable {τ ρ : Type}

/-- All tasks, each with its handle: those due a turn and those that wait. -/
def tasks (e : Executor τ ρ) : List (Handle × τ) := e.queue ++ e.parked

/-- Take the task behind a handle away. -/
def withdraw (e : Executor τ ρ) (handle : Handle) : Executor τ ρ :=
  { e with
    queue := e.queue.filter (fun p => !(p.1 == handle))
    parked := e.parked.filter (fun p => !(p.1 == handle)) }

/-- A handle waits for its result, or was dropped: a task may stand behind it. -/
def MayHaveTask (e : Executor τ ρ) (handle : Handle) : Prop :=
  e.handles[handle]? = some .waiting ∨ e.handles[handle]? = some .dropped

/-! ### The same tasks -/

/-- The second executor has the tasks of the first one, in whatever order, and no new results. -/
structure SameTasks (e e' : Executor τ ρ) : Prop where
  tasks : e'.tasks.Perm e.tasks
  alive : e'.alive = e.alive
  clock : e.clock ≤ e'.clock
  length : e'.handles.length = e.handles.length
  waiting : ∀ handle : Handle,
    e'.handles[handle]? = some .waiting → e.handles[handle]? = some .waiting
  resolved : ∀ (handle : Handle) (result : ρ),
    e'.handles[handle]? = some (.resolved result) → e.handles[handle]? = some (.resolved result)
  mayHaveTask : ∀ handle, e.MayHaveTask handle → e'.MayHaveTask handle

variable (e : Executor τ ρ)

theorem SameTasks.refl : SameTasks e e :=
  ⟨.refl _, rfl, Nat.le_refl _, rfl, fun _ h => h, fun _ _ h => h, fun _ h => h⟩

/-- Tasks that wait are queued: the parked ones are cut in two parts, and both stay. -/
theorem SameTasks.wake (ready : τ → Bool) : SameTasks e (e.wake ready) where
  tasks := by
    rw [Executor.tasks, Executor.wake, Executor.tasks, List.append_assoc]
    exact (List.filter_append_perm _ e.parked).append_left e.queue
  alive := rfl
  clock := Nat.le_refl _
  length := rfl
  waiting _ h := h
  resolved _ _ h := h
  mayHaveTask _ h := h

/-- Only the clock has moved. -/
theorem SameTasks.tick (milliseconds : Nat) :
    SameTasks e { e with clock := e.clock + milliseconds } :=
  ⟨.refl _, rfl, Nat.le_add_right _ _, rfl, fun _ h => h, fun _ _ h => h, fun _ h => h⟩

/-- A handle that is dropped keeps its task, if it has one. -/
theorem SameTasks.drop (handle : Handle) : SameTasks e (e.drop handle) where
  tasks := .refl _
  alive := rfl
  clock := Nat.le_refl _
  length := List.length_set
  -- the handle itself neither waits nor has a result any more, and the others are as they were
  waiting other h := by
    rw [Executor.drop, List.getElem?_set] at h
    split at h
    · split at h <;> cases h
    · exact h
  resolved other result h := by
    rw [Executor.drop, List.getElem?_set] at h
    split at h
    · split at h <;> cases h
    · exact h
  mayHaveTask other h := by
    rw [MayHaveTask, Executor.drop, List.getElem?_set]
    split
    · next h_eq =>
      -- a handle that exists is dropped now
      have h_lt : handle < e.handles.length := by
        rw [h_eq]
        rcases h with h | h <;> exact (List.getElem?_eq_some_iff.mp h).1
      exact .inr (if_pos h_lt)
    · exact h

/-- Whoever takes results leaves the handles that may have a task. -/
theorem SameTasks.take : SameTasks e e.take.2 where
  tasks := .refl _
  alive := rfl
  clock := Nat.le_refl _
  length := List.length_map _
  -- a look-up in the changed list is a look-up in the old one, case by case of what became
  -- of the handle
  waiting other h := by
    rw [Executor.take, List.getElem?_map, Option.map_eq_some_iff] at h
    obtain ⟨state, h_state, h⟩ := h
    cases state <;> cases h
    exact h_state
  resolved other result h := by
    rw [Executor.take, List.getElem?_map, Option.map_eq_some_iff] at h
    obtain ⟨state, h_state, h⟩ := h
    cases state <;> cases h
  mayHaveTask other h := by
    rw [MayHaveTask, Executor.take, List.getElem?_map]
    rcases h with h | h
    · exact .inl (by rw [h]; rfl)
    · exact .inr (by rw [h]; rfl)

/-! ### Resolving a handle -/

section Resolve

variable (handle : Handle) (result : ρ)

@[simp] theorem tasks_resolve : (e.resolve handle result).tasks = e.tasks := by
  unfold resolve; split <;> rfl

@[simp] theorem alive_resolve : (e.resolve handle result).alive = e.alive := by
  unfold resolve; split <;> rfl

@[simp] theorem clock_resolve : (e.resolve handle result).clock = e.clock := by
  unfold resolve; split <;> rfl

@[simp] theorem length_resolve :
    (e.resolve handle result).handles.length = e.handles.length := by
  unfold resolve
  split
  · exact List.length_set
  · rfl

/-- Only the one handle changes, and only if it waits. -/
theorem handles_resolve (other : Handle) :
    (e.resolve handle result).handles[other]? = e.handles[other]? ∨
      (other = handle ∧ e.handles[handle]? = some .waiting ∧
        (e.resolve handle result).handles[other]? = some (.resolved result)) := by
  unfold resolve
  split
  · next h_wait =>
    by_cases h_eq : handle = other
    · subst h_eq
      have h_lt := (List.getElem?_eq_some_iff.mp h_wait).1
      exact .inr ⟨rfl, h_wait, by rw [List.getElem?_set_self h_lt]⟩
    · exact .inl (List.getElem?_set_ne h_eq)
  · exact .inl rfl

/-- What still waits afterwards waited before, and is another handle. -/
theorem waiting_of_resolve {other : Handle}
    (h : (e.resolve handle result).handles[other]? = some .waiting) :
    e.handles[other]? = some .waiting ∧ other ≠ handle := by
  rcases e.handles_resolve handle result other with h_same | ⟨-, -, h_res⟩
  · rw [h_same] at h
    refine ⟨h, ?_⟩
    intro h_eq
    -- a handle that waited would have been resolved
    subst h_eq
    have h_lt := (List.getElem?_eq_some_iff.mp h).1
    rw [resolve, h] at h_same
    rw [List.getElem?_set_self h_lt] at h_same
    cases h_same
  · rw [h_res] at h
    cases h

/-- The other handles are as they were. -/
theorem mayHaveTask_resolve {other : Handle} (h : e.MayHaveTask other) (h_ne : other ≠ handle) :
    (e.resolve handle result).MayHaveTask other := by
  rcases e.handles_resolve handle result other with h_same | ⟨h_eq, -⟩
  · rw [MayHaveTask, h_same]
    exact h
  · exact absurd h_eq h_ne

end Resolve

/-! ### Tasks and their handles -/

/-- The task behind a handle stands for itself once, if every handle has one task at most. -/
theorem perm_of_lookup {l : List (Handle × τ)} (h_nodup : (l.map (·.1)).Nodup) {handle : Handle}
    {task : τ} (h : l.lookup handle = some task) :
    l.Perm ((handle, task) :: l.filter (fun p => !(p.1 == handle))) := by
  -- the induction is on the list: the head is the task in question, or the task is behind it
  induction l with
  | nil => cases h
  | cons p l ih =>
    obtain ⟨other, task'⟩ := p
    rw [List.map_cons, List.nodup_cons] at h_nodup
    by_cases h_eq : other = handle
    · subst h_eq
      rw [List.lookup_cons_self, Option.some.injEq] at h
      subst h
      -- nothing behind the head has the head's handle
      have h_rest : l.filter (fun p => !(p.1 == other)) = l := by
        apply List.filter_eq_self.mpr
        intro p h_mem
        have h_ne : p.1 ≠ other := fun h_eq =>
          h_nodup.1 (h_eq ▸ List.mem_map_of_mem (f := (·.1)) h_mem)
        simpa using h_ne
      rw [List.filter_cons_of_neg (by simp), h_rest]
    · rw [List.lookup_cons, beq_eq_false_iff_ne.mpr (Ne.symm h_eq)] at h
      rw [List.filter_cons_of_pos (by simpa using h_eq)]
      exact ((ih h_nodup.2 h).cons _).trans (.swap ..)

/-- The queue and the parked tasks lose what the whole list loses. -/
theorem tasks_withdraw (handle : Handle) :
    (e.withdraw handle).tasks = e.tasks.filter (fun p => !(p.1 == handle)) := by
  rw [tasks, withdraw, tasks, List.filter_append]

/-- All tasks are left but the one behind the handle. -/
theorem mem_tasks_withdraw {handle : Handle} {p : Handle × τ} :
    p ∈ (e.withdraw handle).tasks ↔ p ∈ e.tasks ∧ p.1 ≠ handle := by
  rw [tasks_withdraw, List.mem_filter]
  simp

/-- A task that waits is one more. -/
theorem tasks_park (handle : Handle) (task : τ) :
    (e.park handle task).tasks.Perm ((handle, task) :: e.tasks) := by
  rw [tasks, park, tasks, ← List.append_assoc]
  exact List.perm_append_singleton _ _

/-- So is one that is queued; it stands between the others. -/
theorem tasks_enqueue (handle : Handle) (task : τ) :
    (e.enqueue handle task).tasks.Perm ((handle, task) :: e.tasks) := by
  rw [tasks, enqueue, tasks, List.append_assoc]
  exact List.perm_middle

/-- Tasks and handles fit together. -/
structure Sound (e : Executor τ ρ) : Prop where
  /-- No two tasks share a handle. -/
  distinct : (e.tasks.map (·.1)).Nodup
  /-- The handle of a task waits for its result, or was dropped. -/
  mayHaveTask : ∀ p ∈ e.tasks, e.MayHaveTask p.1
  /-- A handle that waits for its result has a task. -/
  hasTask : ∀ handle : Handle, e.handles[handle]? = some .waiting → handle ∈ e.tasks.map (·.1)
  /-- After a shutdown there are no tasks. -/
  idle : e.alive = false → e.tasks = []

/-- A handle that may have a task was made. -/
theorem MayHaveTask.lt {e : Executor τ ρ} {handle : Handle} (h : e.MayHaveTask handle) :
    handle < e.handles.length := by
  rcases h with h | h <;> exact (List.getElem?_eq_some_iff.mp h).1

namespace Sound

theorem fresh : (fresh : Executor τ ρ).Sound where
  distinct := .nil
  mayHaveTask _ h := nomatch h
  hasTask handle h := by rw [Executor.fresh, List.getElem?_nil] at h; cases h
  idle h := nomatch h

variable {e}

/-- An executor stays sound as long as no task and no result comes. -/
theorem sameTasks {e' : Executor τ ρ} (h : e.Sound) (same : e.SameTasks e') : e'.Sound where
  distinct := (same.tasks.map _).nodup_iff.mpr h.distinct
  mayHaveTask p h_mem := same.mayHaveTask p.1 (h.mayHaveTask p (same.tasks.mem_iff.mp h_mem))
  hasTask handle h_wait :=
    (same.tasks.map _).mem_iff.mpr (h.hasTask handle (same.waiting handle h_wait))
  -- after a shutdown there were no tasks, and a list with the entries of an empty one is empty
  idle h_alive := by
    have h_nil := h.idle (same.alive.symm.trans h_alive)
    have h_perm := same.tasks
    rw [h_nil] at h_perm
    exact h_perm.eq_nil

/-- Where there is a task, the executor is alive. -/
theorem alive_of_mem (h : e.Sound) {p : Handle × τ} (h_mem : p ∈ e.tasks) : e.alive = true := by
  apply Bool.of_not_eq_false
  intro dead
  rw [h.idle dead] at h_mem
  cases h_mem

/-- A handle has at most one task, so a look-up finds it wherever it stands. -/
theorem lookup_eq_some (h : e.Sound) {handle : Handle} {task : τ} :
    e.tasks.lookup handle = some task ↔ (handle, task) ∈ e.tasks := by
  constructor
  · intro h_lookup
    have h_perm := perm_of_lookup h.distinct h_lookup
    exact h_perm.mem_iff.mpr (List.mem_cons_self ..)
  · intro h_mem
    cases h_lookup : e.tasks.lookup handle with
    | none =>
      rw [List.lookup_eq_none_iff] at h_lookup
      exact absurd (h_lookup _ h_mem) (by simp)
    | some task' =>
      -- the other tasks have other handles
      have h_perm := perm_of_lookup h.distinct h_lookup
      rcases List.mem_cons.mp (h_perm.mem_iff.mp h_mem) with h | h
      · rw [(Prod.mk.inj h).2]
      · simp at h

/-- There is one task behind a handle at most. -/
theorem eq_of_mem (h : e.Sound) {handle : Handle} {task task' : τ}
    (h_mem : (handle, task) ∈ e.tasks) (h_mem' : (handle, task') ∈ e.tasks) : task = task' :=
  Option.some.inj ((h.lookup_eq_some.mpr h_mem).symm.trans (h.lookup_eq_some.mpr h_mem'))

variable {handle : Handle} {task : τ}

/-- The tasks are the one behind the handle and the rest. -/
theorem perm_withdraw (h : e.Sound) (live : e.tasks.lookup handle = some task) :
    e.tasks.Perm ((handle, task) :: (e.withdraw handle).tasks) := by
  rw [tasks_withdraw]
  exact perm_of_lookup h.distinct live

/-- A task ends, and its handle is resolved. -/
theorem finish (h : e.Sound) (handle : Handle) (result : ρ) :
    ((e.withdraw handle).resolve handle result).Sound where
  distinct := by
    rw [tasks_resolve, tasks_withdraw]
    exact h.distinct.sublist (List.filter_sublist.map _)
  mayHaveTask p h_mem := by
    rw [tasks_resolve, mem_tasks_withdraw] at h_mem
    exact mayHaveTask_resolve (e.withdraw handle) handle result (h.mayHaveTask p h_mem.1) h_mem.2
  -- a handle that still waits is not the one that was resolved, so its task is still there
  hasTask other h_wait := by
    obtain ⟨h_wait, h_ne⟩ := waiting_of_resolve _ _ _ h_wait
    obtain ⟨p, h_mem, rfl⟩ := List.mem_map.mp (h.hasTask other h_wait)
    rw [tasks_resolve]
    exact List.mem_map_of_mem ((e.mem_tasks_withdraw).mpr ⟨h_mem, h_ne⟩)
  idle h_alive := by
    rw [alive_resolve] at h_alive
    have h_nil := h.idle h_alive
    rw [tasks_resolve, tasks_withdraw, h_nil, List.filter_nil]

/-- A task goes on waiting, in another form. -/
theorem repark (h : e.Sound) (live : e.tasks.lookup handle = some task) (task' : τ) :
    ((e.withdraw handle).park handle task').Sound := by
  -- the handles that have tasks are the same ones, in another order
  have h_perm : (((e.withdraw handle).park handle task').tasks.map (·.1)).Perm
      (e.tasks.map (·.1)) := by
    have h_live := (h.perm_withdraw live).map (·.1)
    have h_park := ((e.withdraw handle).tasks_park handle task').map (·.1)
    rw [List.map_cons] at h_live h_park
    exact h_park.trans h_live.symm
  refine ⟨h_perm.nodup_iff.mpr h.distinct, ?_, ?_, ?_⟩
  · intro p h_mem
    have h_old : p.1 ∈ e.tasks.map (·.1) := h_perm.mem_iff.mp (List.mem_map_of_mem h_mem)
    obtain ⟨q, h_q, h_eq⟩ := List.mem_map.mp h_old
    rw [← h_eq]
    exact h.mayHaveTask q h_q
  · intro other h_wait
    exact h_perm.mem_iff.mpr (h.hasTask other h_wait)
  · intro h_alive
    -- there was a task, so the executor is alive
    have h_mem := h.lookup_eq_some.mp live
    rw [h.idle h_alive] at h_mem
    cases h_mem

/-- A result that is there at once gets a handle, and no task. -/
theorem newResolved (h : e.Sound) (result : ρ) : (e.newHandle (.resolved result)).2.Sound where
  distinct := h.distinct
  mayHaveTask p h_mem := by
    have h_may := h.mayHaveTask p h_mem
    rw [MayHaveTask, newHandle, List.getElem?_append_left h_may.lt]
    exact h_may
  hasTask other h_wait := by
    rw [newHandle] at h_wait
    rcases Nat.lt_or_ge other e.handles.length with h_lt | h_ge
    · rw [List.getElem?_append_left h_lt] at h_wait
      exact h.hasTask other h_wait
    -- the new handle is the last one, and it does not wait
    · rw [List.getElem?_append_right h_ge, List.getElem?_singleton] at h_wait
      split at h_wait <;> cases h_wait
  idle := h.idle

/-- A new task gets a new handle. -/
theorem newTask (h : e.Sound) (h_alive : e.alive = true) (task : τ) :
    ((e.newHandle .waiting).2.enqueue (e.newHandle .waiting).1 task).Sound := by
  have h_perm := (((e.newHandle .waiting).2.tasks_enqueue e.handles.length task).map (·.1))
  -- the handle lies beyond those that have tasks
  have h_new : e.handles.length ∉ e.tasks.map (·.1) := by
    intro h_mem
    obtain ⟨p, h_p, h_eq⟩ := List.mem_map.mp h_mem
    have h_lt := (h.mayHaveTask p h_p).lt
    rw [h_eq] at h_lt
    exact Nat.lt_irrefl _ h_lt
  refine ⟨h_perm.nodup_iff.mpr (List.nodup_cons.mpr ⟨h_new, h.distinct⟩), ?_, ?_, ?_⟩
  -- the new task has the new handle, and that of every other task is as it was
  · intro p h_mem
    rcases List.mem_cons.mp ((tasks_enqueue _ _ task).mem_iff.mp h_mem) with rfl | h_mem
    · exact .inl (List.getElem?_concat_length ..)
    · have h_may := h.mayHaveTask p h_mem
      rw [MayHaveTask, enqueue, newHandle, List.getElem?_append_left h_may.lt]
      exact h_may
  · intro other h_wait
    rw [enqueue, newHandle] at h_wait
    apply h_perm.mem_iff.mpr
    -- a handle that waits is an old one with its task, or the new one
    rcases Nat.lt_or_ge other e.handles.length with h_lt | h_ge
    · rw [List.getElem?_append_left h_lt] at h_wait
      exact List.mem_cons_of_mem _ (h.hasTask other h_wait)
    · have h_lt := (List.getElem?_eq_some_iff.mp h_wait).1
      rw [List.length_append, List.length_singleton] at h_lt
      rw [Nat.le_antisymm (Nat.lt_succ_iff.mp h_lt) h_ge]
      exact List.mem_cons_self ..
  · intro h_dead
    rw [enqueue, newHandle, h_alive] at h_dead
    cases h_dead

end Sound

end Executor

end OperationFeed
