import OperationFeed.Executor.Machine
import OperationFeed.Proofs.Effect
import OperationFeed.Proofs.Executor.Tasks

/-!
# Moves of an executor

`Machine.runAll` and `Machine.advance` give the tasks their turns in one order. The *moves* of this
module are the smallest steps that an executor can take, and they may come in any order: a task may
get its turn before those that stand in the queue ahead of it, it may get one while nothing that it
waits for has happened, and time may pass while tasks are due.

`Machine.MoveCourse` says what a move can do. All moves but two leave the state and the tasks as
they are; a turn ends its task or parks it, and a shutdown ends them all (`Machine.Ended`). Whatever
is to hold after every sequence of moves is proved for these courses; `Executor.Sound` comes first.
-/

namespace OperationFeed

/-- A step that an executor can take of its own. -/
inductive ExecutorMove where
  -- Queue the waiting tasks that are ready.
  | settle
  -- Give the task behind a handle a turn, be it due one or not.
  | turn (handle : Handle)
  -- Move the clock by some milliseconds.
  | tick (milliseconds : Nat)
  -- Drop a handle.
  | drop (handle : Handle)
  -- Take all results that are there.
  | take
  -- End all tasks, and start no more.
  | shutdown
deriving DecidableEq

namespace Machine

variable {σ τ ρ : Type} [Work σ τ ρ]

/-- Give the task behind a handle a turn, if there is one. -/
def turnFor (handle : Handle) : Act (Machine σ τ ρ) Unit := do
  let m ← get
  match m.executor.tasks.lookup handle with
  | none => return
  | some task =>
    onExecutor (·.withdraw handle)
    turnOf handle task

/-- Make a move. -/
def move : ExecutorMove → Act (Machine σ τ ρ) Unit
  | .settle => settle
  | .turn handle => turnFor handle
  | .tick milliseconds => onExecutor fun e => { e with clock := e.clock + milliseconds }
  | .drop handle => onExecutor (·.drop handle)
  | .take => onExecutor (·.take.2)
  | .shutdown => shutdown

/-- No task is due a turn: the queue is empty, and no waiting task is ready. -/
def IsIdle (m : Machine σ τ ρ) : Prop :=
  m.executor.queue = [] ∧
    ∀ p ∈ m.executor.parked, Work.isReady m.state m.executor.clock p.2 = false

instance (m : Machine σ τ ρ) [DecidableEq τ] : Decidable m.IsIdle :=
  inferInstanceAs (Decidable (m.executor.queue = [] ∧
    ∀ p ∈ m.executor.parked, Work.isReady m.state m.executor.clock p.2 = false))

/-- There is no result for a handle yet: it waits for one, or was dropped while its task goes on. -/
def IsUnresolved (m : Machine σ τ ρ) (handle : Handle) : Prop :=
  m.executor.handles[handle]? = some .waiting ∨ ∃ task, (handle, task) ∈ m.executor.tasks

/-! ### Effects -/

omit [Work σ τ ρ] in
@[simp] theorem effect_onState {α : Type} (a : Act σ α) (m : Machine σ τ ρ) :
    (onState a).effect m = ((a.effect m.state).1, { m with state := (a.effect m.state).2 }) := (rfl)

omit [Work σ τ ρ] in
@[simp] theorem effect_onExecutor (f : Executor τ ρ → Executor τ ρ) (m : Machine σ τ ρ) :
    (onExecutor f).effect m = ((), { m with executor := f m.executor }) := (rfl)

/-- Which of the waiting tasks are ready is a matter of the state and the clock. -/
@[simp] theorem effect_settle (m : Machine σ τ ρ) :
    settle.effect m =
      ((), { m with executor := m.executor.wake (Work.isReady m.state m.executor.clock) }) := (rfl)

/-- A turn that ends its task: the handle is resolved, and other tasks may have become due. -/
theorem turnFor_finished {handle : Handle} {task : τ} {result : ρ} {m : Machine σ τ ρ}
    (live : m.executor.tasks.lookup handle = some task)
    (turn : ((Work.turn m.executor.clock task : Act σ (Turn τ ρ)).effect m.state).1 =
      .finished result) :
    ∃ ready, ((turnFor handle).effect m).2 =
      ⟨((Work.turn m.executor.clock task : Act σ (Turn τ ρ)).effect m.state).2,
        ((m.executor.withdraw handle).resolve handle result).wake ready⟩ := by
  have h_clock : (m.executor.withdraw handle).clock = m.executor.clock := rfl
  rw [turnFor, Act.effect_bind, Act.effect_get]
  -- how many tasks are woken afterwards is of no interest to those who only know that they are
  -- the same ones
  simp only [live, Act.effect_bind, effect_onExecutor, turnOf, Act.effect_get, effect_onState,
    h_clock, turn]
  exact ⟨_, rfl⟩

/-- A turn after which its task goes on as another. -/
theorem turnFor_parked {handle : Handle} {task task' : τ} {m : Machine σ τ ρ}
    (live : m.executor.tasks.lookup handle = some task)
    (turn : ((Work.turn m.executor.clock task : Act σ (Turn τ ρ)).effect m.state).1 =
      .parked task') :
    ∃ ready, ((turnFor handle).effect m).2 =
      ⟨((Work.turn m.executor.clock task : Act σ (Turn τ ρ)).effect m.state).2,
        ((m.executor.withdraw handle).park handle task').wake ready⟩ := by
  have h_clock : (m.executor.withdraw handle).clock = m.executor.clock := rfl
  rw [turnFor, Act.effect_bind, Act.effect_get]
  simp only [live, Act.effect_bind, effect_onExecutor, turnOf, Act.effect_get, effect_onState,
    h_clock, turn]
  exact ⟨_, rfl⟩

/-- The turn of the task at the head of the queue is a turn of the task behind its handle. -/
theorem effect_turn_of_queue {m : Machine σ τ ρ} (h_sound : m.executor.Sound) {handle : Handle}
    {task : τ} {rest : List (Handle × τ)} (h_queue : m.executor.queue = (handle, task) :: rest) :
    turn.effect m = (true, ((turnFor handle).effect m).2) := by
  have h_tasks : m.executor.tasks = (handle, task) :: (rest ++ m.executor.parked) := by
    rw [Executor.tasks, h_queue, List.cons_append]
  have live : m.executor.tasks.lookup handle = some task := by
    rw [h_tasks, List.lookup_cons_self]
  -- no other task has the handle, so taking it away takes the head of the queue away
  have h_distinct := h_sound.distinct
  rw [h_tasks, List.map_cons, List.nodup_cons] at h_distinct
  have h_others : ∀ p ∈ rest ++ m.executor.parked, (!(p.1 == handle)) = true := by
    intro p h_mem
    rw [Bool.not_eq_true', beq_eq_false_iff_ne]
    intro h_eq
    exact h_distinct.1 (List.mem_map.mpr ⟨p, h_mem, h_eq⟩)
  have h_withdraw : m.executor.withdraw handle = { m.executor with queue := rest } := by
    have h_rest : rest.filter (fun p => !(p.1 == handle)) = rest :=
      List.filter_eq_self.mpr fun p h_mem => h_others p (List.mem_append_left _ h_mem)
    have h_parked : m.executor.parked.filter (fun p => !(p.1 == handle)) = m.executor.parked :=
      List.filter_eq_self.mpr fun p h_mem => h_others p (List.mem_append_right _ h_mem)
    rw [Executor.withdraw, h_queue, List.filter_cons_of_neg (by simp), h_rest, h_parked]
  have h_turn : ((turnFor handle).effect m).2 =
      ((turnOf handle task).effect { m with
        executor := { m.executor with queue := rest } }).2 := by
    rw [turnFor, Act.effect_bind, Act.effect_get]
    simp only [live, Act.effect_bind, effect_onExecutor, h_withdraw]
  rw [h_turn, turn, Act.effect_bind, Act.effect_get, h_queue]
  rfl

/-! ### Ending all tasks -/

/-- The tasks of a list have ended unfinished, which is the result of those handles that waited. -/
structure Ends (tasks : List (Handle × τ)) (m m' : Machine σ τ ρ) : Prop where
  clock : m'.executor.clock = m.executor.clock
  length : m'.executor.handles.length = m.executor.handles.length
  waiting : ∀ handle : Handle, m'.executor.handles[handle]? = some .waiting →
    m.executor.handles[handle]? = some .waiting ∧ handle ∉ tasks.map (·.1)
  resolved : ∀ (handle : Handle) (result : ρ),
    m'.executor.handles[handle]? = some (.resolved result) →
      m.executor.handles[handle]? = some (.resolved result) ∨
        (m.executor.handles[handle]? = some .waiting ∧ result = Work.cancelled σ τ)
  /-- The state changes by the ends of tasks alone. -/
  state : ∀ P : σ → Prop,
    (∀ (task : τ) (s : σ), P s → P ((Work.abandon task : Act σ Unit).effect s).2) →
      P m.state → P m'.state

/-- One task ends, and then the rest do. -/
theorem Ends.cons {handle : Handle} {task : τ} {rest : List (Handle × τ)} {m m' : Machine σ τ ρ}
    (h : Ends rest ⟨((Work.abandon task : Act σ Unit).effect m.state).2,
      m.executor.resolve handle (Work.cancelled σ τ)⟩ m') : Ends ((handle, task) :: rest) m m' where
  clock := h.clock.trans (Executor.clock_resolve ..)
  length := h.length.trans (Executor.length_resolve ..)
  waiting other h_wait := by
    obtain ⟨h_wait, h_not⟩ := h.waiting other h_wait
    obtain ⟨h_wait, h_ne⟩ := Executor.waiting_of_resolve _ _ _ h_wait
    exact ⟨h_wait, by simpa using ⟨h_ne, by simpa using h_not⟩⟩
  resolved other result h_res := by
    rcases h.resolved other result h_res with h_res | ⟨h_wait, h_eq⟩
    -- the handle had this result before the rest ended: it is an old one, or that of the first task
    · rcases m.executor.handles_resolve handle (Work.cancelled σ τ) other with
        h_same | ⟨rfl, h_wait, h_new⟩
      · exact .inl (h_same ▸ h_res)
      · exact .inr ⟨h_wait, by injection Option.some.inj (h_res.symm.trans h_new)⟩
    · exact .inr ⟨(Executor.waiting_of_resolve _ _ _ h_wait).1, h_eq⟩
  state P h_abandon h_state := h.state P h_abandon (h_abandon task m.state h_state)

/-- The tasks of a list end one after another, from whatever machine it starts. -/
theorem ends_endTasks (tasks : List (Handle × τ)) (m : Machine σ τ ρ) :
    Ends tasks m ((endTasks tasks).effect m).2 := by
  induction tasks generalizing m with
  | nil =>
    exact ⟨rfl, rfl, fun _ h => ⟨h, List.not_mem_nil⟩, fun _ _ h => .inl h, fun _ _ h => h⟩
  | cons p rest ih => exact .cons (ih _)

/-- Ending the tasks of a list resolves handles, and does nothing else to the executor. -/
theorem executor_endTasks (tasks : List (Handle × τ)) (m : Machine σ τ ρ) :
    ((endTasks tasks).effect m).2.executor.tasks = m.executor.tasks ∧
      ((endTasks tasks).effect m).2.executor.alive = m.executor.alive := by
  induction tasks generalizing m with
  | nil => exact ⟨rfl, rfl⟩
  | cons p rest ih =>
    simp only [endTasks, Act.effect_bind, effect_onState, effect_onExecutor]
    exact ⟨(ih _).1.trans (Executor.tasks_resolve ..), (ih _).2.trans (Executor.alive_resolve ..)⟩

/-- All tasks have ended, and no more will start. -/
structure Ended (m m' : Machine σ τ ρ) : Prop extends Ends m.executor.tasks m m' where
  tasks : m'.executor.tasks = []
  alive : m'.executor.alive = false

/-- A shutdown takes all tasks away and then ends them, those that wait before those due a turn. -/
theorem ended_shutdown (m : Machine σ τ ρ) : Ended m (shutdown.effect m).2 := by
  have h := ends_endTasks (m.executor.parked ++ m.executor.queue)
    { m with executor := { m.executor with alive := false, queue := [], parked := [] } }
  have h_executor := executor_endTasks (m.executor.parked ++ m.executor.queue)
    { m with executor := { m.executor with alive := false, queue := [], parked := [] } }
  -- the list of tasks that are ended is that of all tasks, but for the order
  refine ⟨⟨h.clock, h.length, ?_, h.resolved, h.state⟩, h_executor.1, h_executor.2⟩
  intro handle h_wait
  obtain ⟨h_wait, h_not⟩ := h.waiting handle h_wait
  exact ⟨h_wait, fun h_mem => h_not ((List.perm_append_comm.map _).mem_iff.mp h_mem)⟩

/-! ### Courses -/

/-- What a move can do. -/
inductive MoveCourse (m : Machine σ τ ρ) : ExecutorMove → Machine σ τ ρ → Prop
  -- The move touches neither the state nor the tasks.
  | quiet {move : ExecutorMove} {executor : Executor τ ρ}
      (noTask : ∀ handle, move = .turn handle → m.executor.tasks.lookup handle = none)
      (same : m.executor.SameTasks executor) : MoveCourse m move { m with executor }
  -- A task is over.
  | finished {handle : Handle} {task : τ} {result : ρ} {executor : Executor τ ρ}
      (live : m.executor.tasks.lookup handle = some task)
      (turn : ((Work.turn m.executor.clock task : Act σ (Turn τ ρ)).effect m.state).1 =
        .finished result)
      (same : ((m.executor.withdraw handle).resolve handle result).SameTasks executor) :
      MoveCourse m (.turn handle)
        ⟨((Work.turn m.executor.clock task : Act σ (Turn τ ρ)).effect m.state).2, executor⟩
  -- A task waits, and goes on as another.
  | parked {handle : Handle} {task task' : τ} {executor : Executor τ ρ}
      (live : m.executor.tasks.lookup handle = some task)
      (turn : ((Work.turn m.executor.clock task : Act σ (Turn τ ρ)).effect m.state).1 =
        .parked task')
      (same : ((m.executor.withdraw handle).park handle task').SameTasks executor) :
      MoveCourse m (.turn handle)
        ⟨((Work.turn m.executor.clock task : Act σ (Turn τ ρ)).effect m.state).2, executor⟩
  -- All tasks are over.
  | ended {m' : Machine σ τ ρ} (ended : Ended m m') : MoveCourse m .shutdown m'

/-- A turn of a handle behind which there is no task is none; otherwise the task is over
or goes on. -/
theorem turnFor_course (handle : Handle) (m : Machine σ τ ρ) :
    MoveCourse m (.turn handle) ((turnFor handle).effect m).2 := by
  cases live : m.executor.tasks.lookup handle with
  | none =>
    rw [turnFor, Act.effect_bind, Act.effect_get, live]
    refine .quiet ?_ (.refl _)
    intro other h
    rw [← ExecutorMove.turn.inj h, live]
  | some task =>
    cases turn : ((Work.turn m.executor.clock task : Act σ (Turn τ ρ)).effect m.state).1 with
    | finished result =>
      obtain ⟨ready, h_eq⟩ := turnFor_finished live turn
      rw [h_eq]
      exact .finished live turn (.wake _ _)
    | parked task' =>
      obtain ⟨ready, h_eq⟩ := turnFor_parked live turn
      rw [h_eq]
      exact .parked live turn (.wake _ _)

/-- Every move takes one of the courses. Whatever moves keep is proved case by case of `MoveCourse`.
-/
theorem move_course (move : ExecutorMove) (m : Machine σ τ ρ) :
    MoveCourse m move ((Machine.move move).effect m).2 := by
  cases move with
  | settle => exact .quiet nofun (.wake _ _)
  | turn handle => exact turnFor_course handle m
  | tick milliseconds => exact .quiet nofun (.tick _ _)
  | drop handle => exact .quiet nofun (.drop _ _)
  | take => exact .quiet nofun (.take _)
  | shutdown => exact .ended (ended_shutdown m)

/-- What starting something can do: a result that is there, a new task, or, after a shutdown, the
end of the task on the spot. -/
inductive StartCourse (m : Machine σ τ ρ) : Launch τ ρ → Machine σ τ ρ → Prop
  | ready (result : ρ) :
      StartCourse m (.ready result)
        { m with executor := (m.executor.newHandle (.resolved result)).2 }
  | task (task : τ) (alive : m.executor.alive = true) :
      StartCourse m (.task task)
        { m with
          executor := (m.executor.newHandle .waiting).2.enqueue m.executor.handles.length task }
  | dead (task : τ) (dead : m.executor.alive = false) :
      StartCourse m (.task task)
        ⟨((Work.abandon task : Act σ Unit).effect m.state).2,
          (m.executor.newHandle (.resolved (Work.cancelled σ τ))).2⟩

/-- Whatever is started has the next handle, and one of three things becomes of it. -/
theorem start_course (launch : Launch τ ρ) (m : Machine σ τ ρ) :
    ((start launch).effect m).1 = m.executor.handles.length ∧
      StartCourse m launch ((start launch).effect m).2 := by
  cases launch with
  | ready result => exact ⟨rfl, .ready result⟩
  | task task =>
    cases alive : m.executor.alive with
    | true =>
      simp only [start, Act.effect_bind, Act.effect_get, alive, if_true]
      exact ⟨rfl, .task task alive⟩
    | false =>
      simp only [start, Act.effect_bind, Act.effect_get, alive, Bool.false_eq_true, if_false]
      exact ⟨rfl, .dead task alive⟩

/-! ### What moves keep -/

section Keeps

variable {γ : Type} {view : σ → γ}
  (h_turn : ∀ now (task : τ), (Work.turn now task : Act σ (Turn τ ρ)).Keeps view)
  (h_abandon : ∀ task : τ, (Work.abandon task : Act σ Unit).Keeps view)

include h_abandon

/-- Starting something keeps what the ends of tasks keep. -/
theorem keeps_start (launch : Launch τ ρ) :
    (start launch : Act (Machine σ τ ρ) Handle).Keeps (fun m => view m.state) := by
  intro m
  have course := (start_course launch m).2
  generalize ((start launch).effect m).2 = m' at course ⊢
  cases course with
  | ready result => rfl
  | task task alive => rfl
  | dead task dead => exact h_abandon task m.state

include h_turn

/-- A move keeps what turns and the ends of tasks keep. -/
theorem keeps_move (move : ExecutorMove) :
    (Machine.move move : Act (Machine σ τ ρ) Unit).Keeps (fun m => view m.state) := by
  intro m
  have course := move_course move m
  generalize ((Machine.move move).effect m).2 = m' at course ⊢
  cases course with
  | quiet noTask same => rfl
  | finished live turn same => exact h_turn _ _ m.state
  | parked live turn same => exact h_turn _ _ m.state
  | ended ended =>
    -- the ends of the tasks are done one after another, and each one keeps what is seen
    -- of the state
    apply ended.state (fun s => view s = view m.state)
    · exact fun task s h_s => (h_abandon task s).trans h_s
    · rfl

end Keeps

end Machine

/-- A task that is ready is due a turn. -/
theorem Machine.IsIdle.not_isReady {σ τ ρ : Type} [Work σ τ ρ] {m : Machine σ τ ρ}
    (h : m.IsIdle) {handle : Handle} {task : τ} (h_mem : (handle, task) ∈ m.executor.tasks) :
    Work.isReady m.state m.executor.clock task = false := by
  obtain ⟨h_queue, h_parked⟩ := h
  rw [Executor.tasks, h_queue, List.nil_append] at h_mem
  exact h_parked _ h_mem

/-! ### Soundness -/

/-- Where there is no result yet, there is a task. -/
theorem Machine.IsUnresolved.exists_task {σ τ ρ : Type} {m : Machine σ τ ρ} {handle : Handle}
    (h : m.IsUnresolved handle) (h_sound : m.executor.Sound) :
    ∃ task, (handle, task) ∈ m.executor.tasks := by
  rcases h with h_wait | h_task
  · obtain ⟨⟨other, task⟩, h_mem, rfl⟩ := List.mem_map.mp (h_sound.hasTask handle h_wait)
    exact ⟨task, h_mem⟩
  · exact h_task

/-- A handle whose task is due a turn, as long as there is one, has its result once nothing is left
to do. -/
theorem Machine.IsIdle.not_isUnresolved {σ τ ρ : Type} [Work σ τ ρ] {m : Machine σ τ ρ}
    (h : m.IsIdle) (h_sound : m.executor.Sound) {handle : Handle}
    (h_ready : ∀ task, (handle, task) ∈ m.executor.tasks →
      Work.isReady m.state m.executor.clock task = true) : ¬ m.IsUnresolved handle := by
  intro h_unresolved
  obtain ⟨task, h_mem⟩ := h_unresolved.exists_task h_sound
  exact Bool.eq_false_iff.mp (h.not_isReady h_mem) (h_ready task h_mem)

namespace Executor.Sound

variable {σ τ ρ : Type} [Work σ τ ρ] {m m' : Machine σ τ ρ}

/-- Whatever move is made, tasks and handles fit together. -/
theorem moveCourse {move : ExecutorMove} (h : m.executor.Sound) (course : m.MoveCourse move m') :
    m'.executor.Sound := by
  cases course with
  | quiet noTask same => exact h.sameTasks same
  | finished live turn same => exact (h.finish _ _).sameTasks same
  | parked live turn same => exact (h.repark live _).sameTasks same
  | ended ended =>
    -- no task is left, and no handle waits, since each that did had one of the tasks
    refine ⟨?_, ?_, ?_, fun _ => ended.tasks⟩
    · rw [ended.tasks]
      exact .nil
    · rw [ended.tasks]
      intro p h_mem
      cases h_mem
    · intro handle h_wait
      obtain ⟨h_wait, h_not⟩ := ended.waiting handle h_wait
      exact absurd (h.hasTask handle h_wait) h_not

/-- Whatever is started, tasks and handles fit together. -/
theorem startCourse {launch : Launch τ ρ} (h : m.executor.Sound)
    (course : m.StartCourse launch m') : m'.executor.Sound := by
  cases course with
  | ready result => exact h.newResolved result
  | task task alive => exact h.newTask alive task
  | dead task dead => exact h.newResolved _

end Executor.Sound

end OperationFeed
