import OperationFeed.Proofs.Executor.Tasks

/-!
# One handle of an executor

What there is of a handle is its task, if that is not over, and what became of the handle
(`HandleView`). The tasks of an executor may stand in any order, as long as it is sound: a
handle finds its own task. The lemmas of this module say what each change of an executor does
to each handle.
-/

namespace OperationFeed

namespace HandleState

variable {ρ : Type}

/-- The result comes, and is kept if the handle waits for it. -/
def resolve (result : ρ) : HandleState ρ → HandleState ρ
  | .waiting => .resolved result
  | other => other

/-- Whoever takes results comes by. -/
def take : HandleState ρ → HandleState ρ
  | .resolved _ => .taken
  | other => other

/-- A handle is resolved once. -/
@[simp] theorem resolve_resolve (first second : ρ) (state : HandleState ρ) :
    (state.resolve first).resolve second = state.resolve first := by
  cases state <;> rfl

end HandleState

/-- What there is of one handle. -/
structure HandleView (τ ρ : Type) where
  /-- The task behind the handle, unless it is over. -/
  task : Option τ
  /-- What became of the handle, once it was made. -/
  state : Option (HandleState ρ)

namespace HandleView

variable {τ ρ : Type}

/-- The task, if there is one, ends with a result. -/
def ended (result : ρ) (v : HandleView τ ρ) : HandleView τ ρ :=
  match v.task with
  | none => v
  | some _ => ⟨none, v.state.map (·.resolve result)⟩

variable {v : HandleView τ ρ} {task : τ}

/-- A task that is over does not end again. -/
theorem ended_of_none (h : v.task = none) (result : ρ) : v.ended result = v := by
  rw [ended, h]

/-- A task that ends gives its handle the result. -/
theorem ended_of_some (h : v.task = some task) (result : ρ) :
    v.ended result = ⟨none, v.state.map (HandleState.resolve result)⟩ := by
  rw [ended, h]

end HandleView

namespace Executor

variable {τ ρ : Type} (e : Executor τ ρ)

/-- What there is of a handle. -/
def view (handle : Handle) : HandleView τ ρ := ⟨e.tasks.lookup handle, e.handles[handle]?⟩

/-- To resolve a handle is to change one entry of the list, whatever state it is in. -/
theorem resolve_eq_modify (handle : Handle) (result : ρ) :
    e.resolve handle result =
      { e with handles := e.handles.modify handle (HandleState.resolve result) } := by
  have h_handles : (e.resolve handle result).handles =
      e.handles.modify handle (HandleState.resolve result) := by
    -- the lists are compared entry by entry, and only the entry of the handle takes a closer look
    apply List.ext_getElem?
    intro other
    rw [List.getElem?_modify]
    unfold resolve
    split
    · next h_wait =>
      rw [List.getElem?_set]
      by_cases h_eq : handle = other
      · subst h_eq
        have h_lt := (List.getElem?_eq_some_iff.mp h_wait).1
        rw [if_pos rfl, if_pos h_lt, h_wait]
        simp [HandleState.resolve]
      · simp [h_eq]
    · next h_not =>
      by_cases h_eq : handle = other
      · subst h_eq
        rcases h_state : e.handles[handle]? with _ | (_ | _ | _ | _)
        · rfl
        · exact absurd h_state h_not
        all_goals simp [HandleState.resolve]
      · simp [h_eq]
  rw [← h_handles]
  unfold resolve
  split <;> rfl

/-- When the task behind a handle is taken away, the others are still found. -/
theorem lookup_withdraw (handle other : Handle) :
    (e.withdraw handle).tasks.lookup other =
      if other = handle then none else e.tasks.lookup other := by
  rw [tasks_withdraw]
  induction e.tasks with
  | nil => simp
  | cons p l ih =>
    obtain ⟨first, task⟩ := p
    -- the head is the task that is taken away, or it stays the head
    by_cases h_first : first = handle
    · rw [List.filter_cons_of_neg (by simpa using h_first), ih, List.lookup_cons]
      subst h_first
      split
      · rfl
      · next h_ne => rw [beq_eq_false_iff_ne.mpr h_ne]
    · rw [List.filter_cons_of_pos (by simpa using h_first), List.lookup_cons, List.lookup_cons, ih]
      by_cases h_other : other = first
      · subst h_other
        rw [beq_self_eq_true]
        exact (if_neg h_first).symm
      · rw [beq_eq_false_iff_ne.mpr h_other]

section Live

variable {handle : Handle} {task : τ} (live : e.tasks.lookup handle = some task)

include live

/-- The task behind a handle ends. -/
theorem view_finish (result : ρ) (other : Handle) :
    ((e.withdraw handle).resolve handle result).view other =
      if other = handle then (e.view other).ended result else e.view other := by
  rw [view, tasks_resolve, lookup_withdraw, resolve_eq_modify, List.getElem?_modify]
  by_cases h_eq : other = handle
  · subst h_eq
    rw [if_pos rfl, if_pos rfl, HandleView.ended, view, live]
    simp [withdraw]
  · simp [h_eq, Ne.symm h_eq, view, withdraw]

/-- The task behind a handle goes on as another. -/
theorem view_repark (task' : τ) (other : Handle) :
    ((e.withdraw handle).park handle task').view other =
      if other = handle then { e.view other with task := some task' } else e.view other := by
  have h_tasks : ((e.withdraw handle).park handle task').tasks =
      (e.withdraw handle).tasks ++ [(handle, task')] := by
    rw [tasks, park, tasks, List.append_assoc]
  rw [view, h_tasks, List.lookup_append, lookup_withdraw, List.lookup_cons]
  by_cases h_eq : other = handle
  · subst h_eq
    rw [if_pos rfl, if_pos rfl, beq_self_eq_true]
    rfl
  · rw [if_neg h_eq, if_neg h_eq, beq_eq_false_iff_ne.mpr h_eq]
    simp [view, withdraw, park]

end Live

/-- Nothing changes if no task is ready. -/
theorem wake_of_forall {ready : τ → Bool} (h : ∀ p ∈ e.parked, ready p.2 = false) :
    e.wake ready = e := by
  have h_queue : e.parked.filter (fun p => ready p.2) = [] :=
    List.filter_eq_nil_iff.mpr fun p h_mem => Bool.eq_false_iff.mp (h p h_mem)
  have h_parked : e.parked.filter (fun p => !ready p.2) = e.parked :=
    List.filter_eq_self.mpr fun p h_mem => by rw [h p h_mem]; rfl
  rw [wake, h_queue, h_parked, List.append_nil]

variable {e} {e' : Executor τ ρ}

/-- Tasks may move about: a handle finds its own. -/
theorem Sound.lookup_sameTasks (h : e.Sound) (same : e.SameTasks e') (handle : Handle) :
    e'.tasks.lookup handle = e.tasks.lookup handle := by
  apply Option.ext
  intro task
  rw [h.lookup_eq_some, (h.sameTasks same).lookup_eq_some, same.tasks.mem_iff]

/-- There is nothing of a handle that was not made. -/
theorem Sound.lookup_of_length_le (h : e.Sound) {handle : Handle}
    (h_le : e.handles.length ≤ handle) : e.tasks.lookup handle = none := by
  rw [List.lookup_eq_none_iff]
  intro p h_mem
  have h_lt := (h.mayHaveTask p h_mem).lt
  exact bne_iff_ne.mpr (Nat.ne_of_gt (Nat.lt_of_lt_of_le h_lt h_le))

/-! ### New handles -/

/-- The new handle has no task, and the others are as they were. -/
theorem Sound.view_newHandle (h : e.Sound) (state : HandleState ρ) (handle : Handle) :
    (e.newHandle state).2.view handle =
      if handle = e.handles.length then ⟨none, some state⟩ else e.view handle := by
  rw [view, newHandle]
  dsimp only
  -- the handle was made before, is the new one, or is not there yet
  rcases Nat.lt_trichotomy handle e.handles.length with h_lt | rfl | h_gt
  · rw [if_neg (Nat.ne_of_lt h_lt), List.getElem?_append_left h_lt]
    rfl
  · rw [if_pos rfl, List.getElem?_concat_length]
    exact congrArg (HandleView.mk · _) (h.lookup_of_length_le (Nat.le_refl _))
  · have h_end : e.handles.length + 1 ≤ handle := h_gt
    rw [if_neg (Nat.ne_of_gt h_gt), view, List.getElem?_eq_none (Nat.le_of_lt h_gt),
      List.getElem?_eq_none (by simpa using h_end)]
    rfl

/-- The new handle waits for the new task, and the others are as they were. -/
theorem Sound.view_newTask (h : e.Sound) (task : τ) (handle : Handle) :
    ((e.newHandle .waiting).2.enqueue e.handles.length task).view handle =
      if handle = e.handles.length then ⟨some task, some .waiting⟩ else e.view handle := by
  have h_new := h.view_newHandle .waiting handle
  have h_state := congrArg HandleView.state h_new
  have h_task : ((e.newHandle .waiting).2.enqueue e.handles.length task).tasks.lookup handle =
      if handle = e.handles.length then some task else e.tasks.lookup handle := by
    rw [tasks, enqueue, newHandle, List.lookup_append, List.lookup_append, tasks,
      List.lookup_append, List.lookup_cons]
    by_cases h_eq : handle = e.handles.length
    · -- nobody has had the handle before
      have h_none := h.lookup_of_length_le (Nat.le_of_eq h_eq.symm)
      rw [tasks, List.lookup_append, Option.or_eq_none_iff] at h_none
      rw [if_pos h_eq, h_none.1, h_eq, beq_self_eq_true]
      rfl
    · rw [if_neg h_eq, beq_eq_false_iff_ne.mpr h_eq]
      simp
  rw [view, h_task]
  split at h_state
  · next h_eq =>
    rw [if_pos h_eq, if_pos h_eq]
    exact congrArg (HandleView.mk _) h_state
  · next h_ne =>
    rw [if_neg h_ne, if_neg h_ne]
    exact congrArg (HandleView.mk _) h_state

/-! ### Handles that are dropped, and results that are taken -/

variable (e)

/-- A drop is seen by its own handle only, and there it leaves the task. -/
theorem view_drop (handle other : Handle) :
    (e.drop handle).view other =
      if other = handle then
        { e.view other with state := (e.view other).state.map fun _ => .dropped }
      else e.view other := by
  rw [view, drop, List.getElem?_set]
  by_cases h_eq : other = handle
  · subst h_eq
    rw [if_pos rfl, if_pos rfl, view]
    refine congrArg (HandleView.mk _) ?_
    split
    · next h_lt =>
      rw [List.getElem?_eq_getElem h_lt]
      rfl
    · next h_not =>
      rw [List.getElem?_eq_none (Nat.le_of_not_lt h_not)]
      rfl
  · rw [if_neg (Ne.symm h_eq), if_neg h_eq]
    rfl

/-- Those who had their result there have it no more. -/
theorem view_take (handle : Handle) :
    e.take.2.view handle =
      { e.view handle with state := (e.view handle).state.map HandleState.take } := by
  have h_take : e.take.2.handles = e.handles.map HandleState.take := by
    apply List.map_congr_left
    intro state _
    cases state <;> rfl
  rw [view, h_take, List.getElem?_map]
  rfl

/-- What is handed out are the results of the handles that are resolved. -/
theorem mem_take_fst {handle : Handle} {result : ρ} :
    (handle, result) ∈ e.take.1 ↔ e.handles[handle]? = some (.resolved result) := by
  have h_take : e.take.1 = e.untaken := rfl
  rw [h_take, untaken, List.mem_filterMap]
  constructor
  · rintro ⟨⟨state, other⟩, h_mem, h_eq⟩
    rw [List.mem_zipIdx_iff_getElem?] at h_mem
    -- only a resolved handle has a result
    cases state <;> cases h_eq
    exact h_mem
  · intro h_state
    exact ⟨(.resolved result, handle), List.mem_zipIdx_iff_getElem?.mpr h_state, rfl⟩

/-- The unresolved handles are those that wait. -/
theorem mem_unresolved {handle : Handle} :
    handle ∈ e.unresolved ↔ e.handles[handle]? = some .waiting := by
  rw [unresolved, List.mem_filterMap]
  constructor
  · rintro ⟨⟨state, other⟩, h_mem, h_eq⟩
    rw [List.mem_zipIdx_iff_getElem?] at h_mem
    cases state <;> cases h_eq
    exact h_mem
  · intro h_state
    exact ⟨(.waiting, handle), List.mem_zipIdx_iff_getElem?.mpr h_state, rfl⟩

/-- No handle has two results in what is handed out. -/
theorem nodup_take_fst : (e.take.1.map (·.1)).Nodup := by
  have h_take : e.take.1 = e.untaken := rfl
  -- the handles are numbers of places in a list, in their order
  have h_places : e.handles.zipIdx.Pairwise fun p q => p.2 ≠ q.2 := by
    have h_range : (e.handles.zipIdx.map (·.2)).Nodup := by
      rw [List.zipIdx_map_snd]
      exact List.nodup_range'
    exact List.pairwise_map.mp h_range
  rw [h_take, List.Nodup, List.pairwise_map]
  refine h_places.filterMap _ ?_
  rintro ⟨state, handle⟩ ⟨state', handle'⟩ h_ne _ h_eq _ h_eq'
  cases state <;> cases h_eq
  cases state' <;> cases h_eq'
  exact h_ne

end Executor

end OperationFeed
