import OperationFeed.Executor.Basic
import OperationFeed.Trace.Act

/-!
# Machines

A machine is a state that tasks work on, together with the executor that runs them. What a task does
in its turn, when a waiting task is ready for one, and by when it wants one in any case, is said by
the class `Work`.

* `Machine.turn` gives the task at the head of the queue its turn;
* `Machine.runAll` gives turns until the queue is empty;
* `Machine.advance` moves the clock, stopping at every deadline on the way;
* `Machine.shutdown` ends all tasks at once.

A waiting task moves to the queue as soon as it is ready (`Machine.settle`), so it is due its turn
before any task that is started later.
-/

namespace OperationFeed

/-- What a turn leads to. -/
inductive Turn (τ ρ : Type) where
  -- The task is over, with a result.
  | finished (result : ρ)
  -- The task waits, and goes on as the given one.
  | parked (task : τ)

/-- A way to start something: its result may be there at once, or be the result of a task. -/
inductive Launch (τ ρ : Type) where
  -- The result is there.
  | ready (result : ρ)
  -- A task will give the result.
  | task (task : τ)

/-- Tasks of type `τ`, with results of type `ρ`, that work on states of type `σ`. -/
class Work (σ τ : Type) (ρ : outParam Type) where
  turn : Nat → τ → Act σ (Turn τ ρ)
  /-- Whether a waiting task is ready for a turn, in a given state at a given time. -/
  isReady : σ → Nat → τ → Bool
  /-- The time at which a waiting task is ready whatever the state. -/
  deadline? : τ → Option Nat
  /-- What the end of an unfinished task does to the state. -/
  abandon : τ → Act σ Unit
  /-- The result of a task that never finishes. -/
  cancelled : ρ

/-- A state and the executor of the tasks that work on it. -/
structure Machine (σ τ ρ : Type) where
  state : σ
  executor : Executor τ ρ

namespace Machine

variable {σ τ ρ α : Type}

/-- Act on the state alone. -/
def onState (a : Act σ α) : Act (Machine σ τ ρ) α :=
  a.onPart Machine.state (fun m state => { m with state })

/-- Change the executor alone. -/
def onExecutor (f : Executor τ ρ → Executor τ ρ) : Act (Machine σ τ ρ) Unit :=
  modify fun m => { m with executor := f m.executor }

/-- Take the results that have come. -/
def takeResults : Act (Machine σ τ ρ) (List (Handle × ρ)) :=
  modifyGet fun m =>
    let (done, executor) := m.executor.take
    (done, { m with executor })

variable [Work σ τ ρ]

/-- Queue the waiting tasks that are ready. -/
def settle : Act (Machine σ τ ρ) Unit :=
  modify fun m =>
    { m with executor := m.executor.wake (Work.isReady m.state m.executor.clock) }

/-- Start something, and give the handle on its result. After a shutdown no task is started: it
ends on the spot, and its result is the cancelled one. -/
def start (launch : Launch τ ρ) : Act (Machine σ τ ρ) Handle := do
  let newHandle (state : HandleState ρ) : Act (Machine σ τ ρ) Handle :=
    modifyGet fun m =>
      let (handle, executor) := m.executor.newHandle state
      (handle, { m with executor })
  match launch with
  | .ready result => newHandle (.resolved result)
  | .task task =>
    if (← get).executor.alive then
      let handle ← newHandle .waiting
      onExecutor (·.enqueue handle task)
      return handle
    else
      onState (Work.abandon task)
      newHandle (.resolved (Work.cancelled σ τ))

/-- Give one task its turn. -/
def turnOf (handle : Handle) (task : τ) : Act (Machine σ τ ρ) Unit := do
  let clock := (← get).executor.clock
  match ← onState (Work.turn clock task) with
  | .finished result => onExecutor (·.resolve handle result)
  | .parked task => onExecutor (·.park handle task)
  settle

/-- Give the task at the head of the queue its turn, and say whether there was one. -/
def turn : Act (Machine σ τ ρ) Bool := do
  let m ← get
  match m.executor.queue with
  | [] => return false
  | (handle, task) :: rest =>
    set { m with executor := { m.executor with queue := rest } }
    turnOf handle task
    return true

/-- Give turns, at most as many as `fuel` says. -/
def turns : (fuel : Nat) → Act (Machine σ τ ρ) Unit
  | 0 => return
  | fuel + 1 => do
    if ← turn then turns fuel

/-- How many turns are enough to empty the queue: of `n` tasks, each finishing one wakes the others
at most once. -/
def turnBound (m : Machine σ τ ρ) : Nat :=
  let n := m.executor.queue.length + m.executor.parked.length
  (n + 1) * (n + 1)

/-- Give turns until the queue is empty. -/
def runAll : Act (Machine σ τ ρ) Unit := do
  turns (← get).turnBound

/-- The earliest deadline of a waiting task up to a time. -/
def nextDeadline? (m : Machine σ τ ρ) (upTo : Nat) : Option Nat :=
  ((m.executor.parked.filterMap fun p => Work.deadline? σ p.2).filter (· ≤ upTo)).min?

/-- Move the clock to a time, if that is not in the past, and run what is ready then. -/
def moveTo (time : Nat) : Act (Machine σ τ ρ) Unit := do
  onExecutor fun e => { e with clock := max e.clock time }
  settle
  runAll

/-- Move the clock to the deadlines up to `target`, at most as many as `fuel` says. -/
def moveThrough (target : Nat) : (fuel : Nat) → Act (Machine σ τ ρ) Unit
  | 0 => return
  | fuel + 1 => do
    match (← get).nextDeadline? target with
    | none => return
    | some deadline =>
      moveTo deadline
      moveThrough target fuel

/-- Move the clock by some milliseconds, with a run before, at every deadline on the way, and at the
end. -/
def advance (milliseconds : Nat) : Act (Machine σ τ ρ) Unit := do
  runAll
  let m ← get
  let target := m.executor.clock + milliseconds
  moveThrough target (m.executor.parked.length + 1)
  moveTo target

/-- End a list of tasks, unfinished. -/
def endTasks : List (Handle × τ) → Act (Machine σ τ ρ) Unit
  | [] => return
  | (handle, task) :: rest => do
    onState (Work.abandon task)
    onExecutor (·.resolve handle (Work.cancelled σ τ))
    endTasks rest

/-- End all tasks, unfinished, and start no more. -/
def shutdown : Act (Machine σ τ ρ) Unit := do
  let m ← get
  onExecutor fun e => { e with alive := false, queue := [], parked := [] }
  endTasks (m.executor.parked ++ m.executor.queue)

end Machine

end OperationFeed
